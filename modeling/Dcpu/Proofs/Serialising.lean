import Dcpu.Proofs.Addresses
import Dcpu.Proofs.Emission
import Dcpu.Proofs.References

/-!
# Serialising an assembled program

An assembled program always has words, but not all of them need to fit into sixteen bits. Literals
are checked when a line is encoded (`Instruction.Sound`), addresses of labels are not. So the words
that do not fit are the addresses beyond 65535 of the labels to which the source refers, in the
order of the references (`Instruction.filter_words`). There are octets if there is no such address,
and otherwise the first of them is reported.

An address is at most the size of the program (`Entry.le_of_mem_addresses`), and a program has no
more words than its source has characters (`targets_of_assemble`).
-/

namespace Dcpu
open Results
open Source (Operand lines tokens body lineSize references)

/-! ### Values that are checked -/

/-- An instruction whose fields fit and whose known values are words. -/
structure Instruction.Sound (i : Instruction) : Prop where
  fits : i.fields.Fits
  literals : ∀ value, Slot.literal value ∈ i.trailing → IsWord value

/-- Every operand of a statement with fields has a code. -/
lemma Statement.exists_code? {st : Statement} {f : Fields} (fields : st.fields? = some f) :
    ∀ o ∈ st.operands, ∃ c, o.code? = some c := by
  rcases fields?_eq_some.1 fields with
    ⟨oa, ob, a, b, _, operands, ha, hb, _⟩ | ⟨ob, b, _, operands, hb, _⟩
  · rw [operands]
    intro o mem
    rcases List.mem_pair.1 mem with rfl | rfl
    · exact ⟨a, ha⟩
    · exact ⟨b, hb⟩
  · rw [operands]
    intro o mem
    cases List.mem_singleton.1 mem
    exact ⟨b, hb⟩

/-- An instruction made of a statement is sound. -/
lemma Statement.sound_of_instruction? {st : Statement} {location : Location} {i : Instruction}
    (built : st.instruction? location = some i) : i.Sound := by
  obtain ⟨fields, hfields, rfl⟩ := Option.map_eq_some_iff.1 built
  refine ⟨fits_of_fields? hfields, ?_⟩
  intro value mem
  obtain ⟨o, member, slot⟩ := List.mem_filterMap.1 mem
  obtain ⟨c, code⟩ := exists_code? hfields o member
  exact Operand.isWord_of_slot? code slot

/-- All instructions read from a source are sound. -/
lemma Entry.sound_of_readFrom {number : Nat} {texts : List String} {es : List Entry}
    (read : readFrom number texts = .ok es) : ∀ i ∈ instructions es, i.Sound := by
  intro i mem
  obtain ⟨_, _, st, _, built⟩ := exists_of_mem_right (forall₂_instructions read) mem
  exact st.sound_of_instruction? built

/-! ### Words that do not fit -/

/-- If all literals are words, the values that are none are addresses of labels. -/
lemma Slot.filter_fill? {labels : Labels} {slots : List Slot} {values : List Int}
    (filled : List.Forall₂ (fun s v => fill? labels s = some v) slots values)
    (literals : ∀ value, literal value ∈ slots → IsWord value) :
    values.filter (¬IsWord ·) =
      ((slots.filterMap label?).filterMap labels.get?).filter (¬IsWord ·) := by
  induction filled with
  | nil => rfl
  | @cons slot value slots values first _ ih =>
    have others := ih fun v mem => literals v (List.mem_cons_of_mem _ mem)
    cases slot with
    | literal v =>
      cases first
      have word := literals _ List.mem_cons_self
      rw [List.filter_cons_of_neg (by simpa using word), others]
      rfl
    | reference name =>
      have found : labels.get? name = some value := first
      have refers : label? (reference name) = some name := rfl
      rw [List.filterMap_cons_some refers, List.filterMap_cons_some found, List.filter_cons,
        List.filter_cons, others]

namespace Instruction

lemma Sound.resolve {i j : Instruction} {labels : Labels} (sound : i.Sound)
    (resolved : i.resolve labels = .ok j) :
    j.words = .ok (j.fields.word :: j.values) ∧ (∃ word, j.word = .ok word ∧ IsWord word) ∧
      (j.fields.word :: j.values).filter (¬IsWord ·) =
        (i.labels.filterMap labels.get?).filter (¬IsWord ·) := by
  obtain ⟨values, filled, rfl⟩ := resolve_eq_ok.1 resolved
  have same : Instruction.values ⟨i.location, i.fields, values.map .literal⟩ = values :=
    values_eq rfl
  have slots := mapM_eq_some.1 filled
  refine ⟨words_eq_ok sound.fits (by rw [same]), ?_, ?_⟩
  · exact ⟨_, Fields.pack_of_fits sound.fits, Fields.isWord_word sound.fits⟩
  · have word := Fields.isWord_word sound.fits
    rw [same, List.filter_cons_of_neg (by simpa using word)]
    exact Slot.filter_fill? slots sound.literals

/-- The words of resolved instructions that do not fit are the addresses that do not fit of the
labels to which the instructions refer. -/
lemma filter_words {labels : Labels} {is js : List Instruction}
    (resolved : List.Forall₂ (fun i j => i.resolve labels = .ok j) is js)
    (sound : ∀ i ∈ is, i.Sound) :
    (js.map fun j => j.fields.word :: j.values).flatten.filter (¬IsWord ·) =
      ((is.flatMap located).filterMap fun r => labels.get? r.2).filter (¬IsWord ·) := by
  induction resolved with
  | nil => rfl
  | @cons i j is js first _ ih =>
    have others := ih fun i mem => sound i (List.mem_cons_of_mem _ mem)
    obtain ⟨_, _, here⟩ := (sound i List.mem_cons_self).resolve first
    have located : (i.located.filterMap fun r => labels.get? r.2) =
        i.labels.filterMap labels.get? := by
      rw [Instruction.located, List.filterMap_map]
      rfl
    rw [List.map_cons, List.flatten_cons, List.filter_append, here, others, List.flatMap_cons,
      List.filterMap_append, List.filter_append, located]

end Instruction

/-! ### Sizes and addresses -/

namespace Entry

lemma sum_size (es : List Entry) :
    (es.map size).sum = ((instructions es).map Instruction.size).sum := by
  induction es with
  | nil => rfl
  | cons e es ih =>
    rw [List.map_cons, List.sum_cons, ih, instructions, instructions]
    cases instruction : e.instruction <;> simp [size, instruction]

/-- A label stands between the first line and the end of the last one. -/
lemma le_of_mem_addresses {address : Nat} {es : List Entry} {name : String} {x : Int}
    (mem : (name, x) ∈ addresses address es) :
    address ≤ x ∧ x ≤ (address + (es.map size).sum : Nat) := by
  induction es generalizing address with
  | nil => cases mem
  | cons e es ih =>
    rw [addresses_cons] at mem
    rw [List.map_cons, List.sum_cons]
    rcases List.mem_append.1 mem with here | behind
    · obtain ⟨_, _, h⟩ := List.mem_map.1 here
      cases h
      omega
    · have := ih behind
      omega

end Entry

/-- A line does not have more words than characters. -/
lemma Source.lineSize_le_length (text : String) : lineSize text ≤ text.length := by
  cases read : Statement.ofTokens? (body (tokens text)) with
  | none => simp [lineSize, read]
  | some st =>
    obtain ⟨mnemonic, operands⟩ := Statement.parts_of_ofTokens? read
    have taken : st.operands.countP Operand.takesWord ≤ st.operands.length :=
      List.countP_le_length
    have count := operands.length_eq
    have behind : (body (tokens text)).length = (body (tokens text)).tail.length + 1 := by
      cases parts : body (tokens text) with
      | nil =>
        rw [parts] at mnemonic
        cases mnemonic
      | cons => rfl
    have fewer := (body_sublist (tokens text)).length_le
    have short := length_tokens_le text
    rw [lineSize, read]
    show 1 + st.operands.countP Operand.takesWord ≤ text.length
    omega

/-- The sizes of entries are told by their lines. -/
lemma Entry.sum_size_of_readFrom {number : Nat} {texts : List String} {es : List Entry}
    (read : readFrom number texts = .ok es) : (es.map size).sum = (texts.map lineSize).sum := by
  induction texts generalizing number es with
  | nil =>
    cases read
    rfl
  | cons text texts ih =>
    obtain ⟨e, es, first, rest, rfl⟩ := readFrom_cons_eq_ok.1 read
    rw [List.map_cons, List.map_cons, List.sum_cons, List.sum_cons, size_of_read first, ih rest]

/-- Resolving keeps sizes, so a program has the size of the lines from which it comes. -/
lemma Entry.size_of_resolveAll {es : List Entry} {p : Program} {labels : Labels}
    (resolved : Instruction.resolveAll (instructions es) labels = .ok p.instructions) :
    p.size = (es.map size).sum := by
  rw [Program.size_eq_sum, sum_size, Instruction.map_size_of_resolveAll resolved]

/-! ### Octets -/

/-- The addresses of the labels to which the lines of a source refer, in the order of the
references. -/
def Source.targets (source : String) (labels : Labels) : List Int :=
  (references source).filterMap fun r => labels.get? r.2

open Source (targets)

/-- A program has words, and those that do not fit are addresses of labels to which the source
refers. -/
lemma words_of_assemble {source : String} {p : Program} (ok : assemble source = .ok p) :
    p.words = .ok (p.instructions.map fun i => i.fields.word :: i.values).flatten ∧
      (∀ i ∈ p.instructions, ∃ word, i.word = .ok word ∧ IsWord word) ∧
      (p.instructions.map fun i => i.fields.word :: i.values).flatten.filter (¬IsWord ·) =
        (targets source p.labels).filter (¬IsWord ·) := by
  obtain ⟨es, read, _, resolved, labels⟩ := assemble_eq_ok.1 ok
  have sound := Entry.sound_of_readFrom read
  have each := mapM_eq_ok.1 resolved
  rw [← labels] at each
  refine ⟨Program.words_eq_ok ?_, ?_, ?_⟩
  · intro j mem
    obtain ⟨i, member, filled⟩ := exists_of_mem_right each mem
    exact ((sound i member).resolve filled).1
  · intro j mem
    obtain ⟨i, member, filled⟩ := exists_of_mem_right each mem
    exact ((sound i member).resolve filled).2.1
  · rw [Instruction.filter_words each sound, Entry.located_of_readFrom read]
    rfl

/-- The addresses to which a source refers lie within its program, which has no more words than the
source has characters. -/
lemma targets_of_assemble {source : String} {p : Program} (ok : assemble source = .ok p) :
    (∀ r ∈ references source, r.2 ∈ p.labels.names) ∧
      (∀ target ∈ targets source p.labels, 0 ≤ target ∧ target ≤ p.size) ∧
      p.size ≤ source.length := by
  obtain ⟨es, read, _, resolved, labels⟩ := assemble_eq_ok.1 ok
  have size := Entry.size_of_resolveAll resolved
  refine ⟨?_, ?_, ?_⟩
  · intro r mem
    rw [labels]
    rw [references, ← Entry.located_of_readFrom read] at mem
    exact Instruction.mem_names_of_resolveAll resolved mem
  · intro target mem
    obtain ⟨r, _, found⟩ := List.mem_filterMap.1 mem
    rw [labels] at found
    have := Entry.le_of_mem_addresses (Labels.mem_of_get? found)
    rw [size]
    omega
  · rw [size, Entry.sum_size_of_readFrom read]
    apply le_trans ?_ (Source.sum_length_lines_le source)
    exact List.sum_le_sum fun text _ => Source.lineSize_le_length text

/-- A value that is not negative and no word is too large. -/
lemma filter_not_isWord {values : List Int} (nonneg : ∀ value ∈ values, 0 ≤ value) :
    values.filter (¬IsWord ·) = values.filter (0xffff < ·) := by
  apply List.filter_congr
  intro value mem
  have := nonneg value mem
  apply decide_eq_decide.2
  simp only [IsWord]
  omega

/-- A value is reported if it is below a number that can be written. -/
lemma Failure.valueRange_eq {value : Int} {n : Nat} (nonneg : 0 ≤ value) (le : value ≤ n)
    (short : n < 10 ^ Text.digitLimit) :
    valueRange value = .diagnostic { fault := .valueRange value, location := {} } := by
  obtain ⟨m, rfl⟩ := Int.eq_ofNat_of_zero_le nonneg
  have written : Text.isWritable m = true :=
    Text.isWritable_of_le (Int.ofNat_le.1 le) (Text.isWritable_natCast.2 short)
  exact Location.failure_of_isWritable rfl written

/-- What is true of a program and its source if only addresses of labels can be too large to be
written. -/
structure Serialises (source : String) (p : Program) : Prop where
  opcodes : ∀ i ∈ p.instructions, ∃ word, i.word = .ok word ∧ IsWord word
  defined : ∀ r ∈ references source, r.2 ∈ p.labels.names
  /-- There are words, and those that do not fit are the addresses beyond 65535, in the same
  order. -/
  words : ∃ words, p.words = .ok words ∧
    words.filter (¬IsWord ·) = (targets source p.labels).filter (0xffff < ·)
  bytes : (∃ bytes, p.bytes = .ok bytes) ↔ ∀ target ∈ targets source p.labels, target ≤ 0xffff
  small : p.size ≤ 0xffff → ∃ bytes, p.bytes = .ok bytes
  failure : ∀ value, (targets source p.labels).find? (0xffff < ·) = some value →
    p.bytes = .error (.valueRange value)
  /-- The failure is the diagnostic with the value, at no place, unless the value has too many
  digits to be written. An address like that takes a source of as many characters. -/
  report : source.length < 10 ^ Text.digitLimit →
    ∀ value, (targets source p.labels).find? (0xffff < ·) = some value →
      p.bytes = .error (.diagnostic { fault := .valueRange value, location := {} })

/-- An assembled program has words, and it has octets exactly if no line refers to a label beyond
65535. Otherwise the first such address is reported. -/
theorem serialises_of_assemble {source : String} {p : Program} (ok : assemble source = .ok p) :
    Serialises source p := by
  obtain ⟨words, each, unfit⟩ := words_of_assemble ok
  obtain ⟨defined, within, short⟩ := targets_of_assemble ok
  generalize (p.instructions.map fun i => i.fields.word :: i.values).flatten = ws at words unfit
  rw [filter_not_isWord fun target mem => (within target mem).1] at unfit
  have bytes : p.bytes = wordsToBytes ws := by
    rw [Program.bytes, words]
    rfl
  have fits : (∃ bytes, p.bytes = .ok bytes) ↔
      ∀ target ∈ targets source p.labels, target ≤ 0xffff := by
    have none : ws.filter (¬IsWord ·) = [] ↔
        (targets source p.labels).filter (0xffff < ·) = [] := by
      rw [unfit]
    simp only [List.filter_eq_nil_iff, decide_eq_true_eq, not_not, not_lt] at none
    simp only [bytes, wordsToBytes_eq_ok, exists_and_left, exists_eq, and_true, none]
  have err {value : Int} (found : (targets source p.labels).find? (0xffff < ·) = some value) :
      p.bytes = .error (.valueRange value) := by
    rw [← List.head?_filter, ← unfit, List.head?_filter] at found
    exact bytes.trans (wordsToBytes_eq_error.2 ⟨value, found, rfl⟩)
  refine ⟨each, defined, ⟨ws, words, unfit⟩, fits, ?_, fun _ => err, ?_⟩
  · intro small
    apply fits.2
    intro target mem
    obtain ⟨_, le⟩ := within target mem
    omega
  · intro few value found
    obtain ⟨nonneg, le⟩ := within value (List.mem_of_find?_eq_some found)
    rw [err found, Failure.valueRange_eq nonneg le (lt_of_le_of_lt short few)]

/-- A program with a literal at the end of the range and a label behind its last word. -/
theorem serialises_of_assemble_end :
    let source := "SET [0xffff], end\n:end"
    let p : Program := {
      instructions := [⟨.ofLine 1 "SET [0xffff], end", ⟨0x1, 0x1e, 0x1f⟩,
        [.literal 0xffff, .literal 3]⟩]
      labels := [("end", 3)] }
    assemble source = .ok p ∧ Serialises source p := by
  intro source p
  have ok : assemble source = .ok p := toOption_eq_some.1 (by decide +kernel)
  exact ⟨ok, serialises_of_assemble ok⟩

end Dcpu
