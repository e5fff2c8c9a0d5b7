import Dcpu.Code.Program
import Dcpu.Proofs.Results

/-!
# Resolving references

`Slot.fill?` is the value of a slot under given addresses of labels. An instruction is resolved
exactly if all its slots have values, which then stand in place of the slots
(`Instruction.resolve_eq_ok`); its fields, its place and its size stay what they were. It fails at
its first reference to a label without an address (`Instruction.resolve_eq_error`), and a list of
instructions fails at the first such reference of all (`Instruction.resolveAll_eq_error`).

A resolved instruction whose fields fit has words: the instruction word, `Fields.word`, and the
values of its slots.
-/

namespace Dcpu
open Results

lemma Labels.get?_eq_none {labels : Labels} {name : String} :
    labels.get? name = none ↔ name ∉ labels.names := by
  simp only [get?, names, List.lookup_eq_none_iff, bne_iff_ne, List.mem_map, not_exists, not_and]
  exact ⟨fun h p mem e => h p mem e.symm, fun h p mem e => h p mem e.symm⟩

lemma Labels.mem_of_get? {labels : Labels} {name : String} {address : Int}
    (found : labels.get? name = some address) : (name, address) ∈ labels := by
  obtain ⟨before, after, e, _⟩ := List.lookup_eq_some_iff.1 found
  rw [e]
  exact List.mem_append_right _ List.mem_cons_self

/-- Names are listed in their order. -/
lemma Fault.pairwise_mergeSort (names : List String) :
    (names.mergeSort fun a b => decide (a ≤ b)).Pairwise (· ≤ ·) := by
  refine (List.pairwise_mergeSort ?_ ?_ names).imp of_decide_eq_true
  · intro a b c ab bc
    exact decide_eq_true (String.le_trans (of_decide_eq_true ab) (of_decide_eq_true bc))
  · intro a b
    simpa using String.le_total a b

/-- There is one way to list names in their order. -/
lemma Fault.eq_mergeSort_iff {names known : List String} :
    known = names.mergeSort (fun a b => decide (a ≤ b)) ↔
      known.Perm names ∧ known.Pairwise (· ≤ ·) := by
  constructor
  · rintro rfl
    exact ⟨List.mergeSort_perm _ _, pairwise_mergeSort names⟩
  · rintro ⟨same, sorted⟩
    apply List.Perm.eq_of_pairwise ?_ sorted (pairwise_mergeSort names)
    · exact same.trans (List.mergeSort_perm _ _).symm
    · exact fun a b _ _ => String.le_antisymm

namespace Slot

/-- The value of a slot under the addresses of labels. -/
def fill? (labels : Labels) : Slot → Option Int
  | literal value => some value
  | reference label => labels.get? label

/-- The value of a slot that is known. -/
def literal? : Slot → Option Int
  | literal value => some value
  | reference _ => none

/-- A slot is resolved to its value. -/
lemma resolve_eq_ok {labels : Labels} {s t : Slot} :
    s.resolve labels = .ok t ↔ ∃ value, s.fill? labels = some value ∧ t = .literal value := by
  cases s with
  | literal value =>
    constructor
    · intro h
      cases h
      exact ⟨value, rfl, rfl⟩
    · rintro ⟨_, h, rfl⟩
      cases h
      rfl
  | reference label =>
    simp only [resolve, fill?]
    cases labels.get? label with
    | none =>
      constructor
      · intro h
        cases h
      · rintro ⟨_, h, _⟩
        cases h
    | some address =>
      constructor
      · intro h
        cases h
        exact ⟨address, rfl, rfl⟩
      · rintro ⟨_, h, rfl⟩
        cases h
        rfl

/-- A slot is not resolved if it refers to a label without an address. -/
lemma resolve_eq_error {labels : Labels} {s : Slot} {label : String} :
    s.resolve labels = .error label ↔ s.label? = some label ∧ label ∉ labels.names := by
  cases s with
  | literal value => exact ⟨nofun, nofun⟩
  | reference name =>
    simp only [resolve, label?]
    cases found : labels.get? name with
    | none =>
      constructor
      · intro h
        cases h
        exact ⟨rfl, Labels.get?_eq_none.1 found⟩
      · rintro ⟨h, _⟩
        cases h
        rfl
    | some address =>
      refine ⟨nofun, ?_⟩
      rintro ⟨h, missing⟩
      cases h
      rw [Labels.get?_eq_none.2 missing] at found
      cases found

lemma mem_names_of_fill? {labels : Labels} {slots : List Slot} {values : List Int}
    (filled : slots.mapM (fill? labels) = some values) :
    ∀ name ∈ slots.filterMap label?, name ∈ labels.names := by
  intro name mem
  obtain ⟨slot, mem, refers⟩ := List.mem_filterMap.1 mem
  cases slot with
  | literal value => cases refers
  | reference label =>
    cases refers
    obtain ⟨value, _, h⟩ := exists_of_mem_left (mapM_eq_some.1 filled) mem
    by_contra missing
    rw [fill?, Labels.get?_eq_none.2 missing] at h
    cases h

/-- Slots are not resolved if they refer to a label without an address, and the first such label is
given back. -/
lemma mapM_resolve_eq_error {labels : Labels} {slots : List Slot} {label : String} :
    slots.mapM (resolve labels) = .error label ↔
      (slots.filterMap label?).find? (fun name => decide (name ∉ labels.names)) = some label := by
  induction slots with
  | nil => exact ⟨nofun, nofun⟩
  | cons s slots ih =>
    rw [List.mapM_cons, bind_eq_error]
    cases resolved : s.resolve labels with
    | error name =>
      obtain ⟨refers, missing⟩ := resolve_eq_error.1 resolved
      rw [List.filterMap_cons_some refers, List.find?_cons_of_pos (by simpa using missing)]
      constructor
      · rintro (h | ⟨_, h, _⟩)
        · cases h
          rfl
        · cases h
      · intro h
        cases h
        exact .inl rfl
    | ok t =>
      -- This slot changes neither the failure of the others nor the first label without an address.
      have rest : ((slots.mapM (resolve labels)).bind fun ts => pure (t :: ts)) = .error label ↔
          slots.mapM (resolve labels) = .error label := by
        cases slots.mapM (resolve labels) with
        | error name => exact ⟨fun h => by cases h; rfl, fun h => by cases h; rfl⟩
        | ok ts => exact ⟨nofun, nofun⟩
      have found :
          ((s :: slots).filterMap label?).find? (fun name => decide (name ∉ labels.names)) =
            (slots.filterMap label?).find? (fun name => decide (name ∉ labels.names)) := by
        cases refers : s.label? with
        | none => rw [List.filterMap_cons_none refers]
        | some name =>
          rw [List.filterMap_cons_some refers, List.find?_cons_of_neg]
          intro missing
          rw [resolve_eq_error.2 ⟨refers, by simpa using missing⟩] at resolved
          cases resolved
      rw [found, ← ih, ← rest]
      constructor
      · rintro (h | ⟨_, h, failed⟩)
        · cases h
        · cases h
          exact failed
      · intro failed
        exact .inr ⟨t, rfl, failed⟩

end Slot

/-- The word with the given fields. -/
def Fields.word (f : Fields) : Int :=
  f.opcode + 0x10 * f.a + 0x400 * f.b

lemma Fields.pack_of_fits {f : Fields} (fits : f.Fits) : f.pack = .ok f.word :=
  pack_eq_ok_iff.2 ⟨fits, rfl⟩

namespace Instruction

/-- The labels to which an instruction refers. -/
def labels (i : Instruction) : List String :=
  i.trailing.filterMap Slot.label?

/-- The references of an instruction are its labels with the indices of their slots. -/
lemma map_snd_references (i : Instruction) : i.references.map Prod.snd = i.labels := by
  have slots : i.labels = (i.trailing.zipIdx.map Prod.fst).filterMap Slot.label? := by
    rw [List.zipIdx_map_fst]
    rfl
  rw [slots, references, List.map_filterMap, List.filterMap_map]
  congr 1
  funext ⟨slot, index⟩
  cases label : slot.label? <;> simp [label]

/-- An instruction is resolved if it refers to no label. -/
lemma isResolved_iff {i : Instruction} : i.isResolved = true ↔ i.labels = [] := by
  rw [isResolved, List.isEmpty_iff, ← map_snd_references, List.map_eq_nil_iff]

/-- An instruction without references is given back as it is, and this is what resolving its slots
would give. -/
lemma resolve_eq (i : Instruction) (labels : Labels) :
    i.resolve labels =
      match i.trailing.mapM (Slot.resolve labels) with
      | .ok trailing => .ok { i with trailing }
      | .error label => .error (i.location.failure (.missingLabel label labels.names)) := by
  unfold resolve
  split
  · next resolved =>
    have slots : i.trailing.mapM (Slot.resolve labels) = .ok i.trailing := by
      rw [mapM_eq_ok, List.forall₂_same]
      intro slot mem
      cases slot with
      | literal value => rfl
      | reference label =>
        have refers : label ∈ i.labels := List.mem_filterMap.2 ⟨_, mem, rfl⟩
        rw [isResolved_iff.1 resolved] at refers
        cases refers
    rw [slots]
  · rfl

/-- Resolving an instruction is resolving its slots. -/
lemma resolve_eq_ok_slots {i j : Instruction} {labels : Labels} :
    i.resolve labels = .ok j ↔
      ∃ ts, List.Forall₂ (fun s t => s.resolve labels = .ok t) i.trailing ts ∧
        j = { i with trailing := ts } := by
  simp only [← mapM_eq_ok, resolve_eq]
  cases i.trailing.mapM (Slot.resolve labels) with
  | error label => exact ⟨(fun h => by cases h), (fun ⟨_, h, _⟩ => by cases h)⟩
  | ok ts =>
    constructor
    · intro h
      cases h
      exact ⟨ts, rfl, rfl⟩
    · rintro ⟨_, h, rfl⟩
      cases h
      rfl

/-- An instruction is resolved exactly if all its slots have values. -/
lemma resolve_eq_ok {i j : Instruction} {labels : Labels} :
    i.resolve labels = .ok j ↔
      ∃ values, i.trailing.mapM (Slot.fill? labels) = some values ∧
        j = { i with trailing := values.map .literal } := by
  have slots {ts : List Slot} :
      List.Forall₂ (fun s t => s.resolve labels = .ok t) i.trailing ts ↔
        ∃ values, i.trailing.mapM (Slot.fill? labels) = some values ∧ ts = values.map .literal := by
    simp only [mapM_eq_some, Slot.resolve_eq_ok]
    generalize i.trailing = ss
    constructor
    · intro resolved
      induction resolved with
      | nil => exact ⟨[], .nil, rfl⟩
      | cons first _ ih =>
        obtain ⟨value, filled, rfl⟩ := first
        obtain ⟨values, rest, rfl⟩ := ih
        exact ⟨value :: values, .cons filled rest, rfl⟩
    · rintro ⟨values, filled, rfl⟩
      induction filled with
      | nil => exact .nil
      | @cons _ value _ _ first _ ih => exact .cons ⟨value, first, rfl⟩ ih
  rw [resolve_eq_ok_slots]
  constructor
  · rintro ⟨_, resolved, rfl⟩
    obtain ⟨values, filled, rfl⟩ := slots.1 resolved
    exact ⟨values, filled, rfl⟩
  · rintro ⟨values, filled, rfl⟩
    exact ⟨_, slots.2 ⟨values, filled, rfl⟩, rfl⟩

lemma size_of_resolve {i j : Instruction} {labels : Labels} (resolved : i.resolve labels = .ok j) :
    j.size = i.size := by
  obtain ⟨values, filled, rfl⟩ := resolve_eq_ok.1 resolved
  rw [size, size, List.length_map, (mapM_eq_some.1 filled).length_eq]

lemma map_size_of_resolveAll {is js : List Instruction} {labels : Labels}
    (resolved : resolveAll is labels = .ok js) : js.map size = is.map size :=
  (map_eq_map_iff.2 ((mapM_eq_ok.1 resolved).imp fun _ _ ok => (size_of_resolve ok).symm)).symm

/-- An instruction is not resolved exactly if it refers to a label without an address, and the
failure names the first such label. -/
lemma resolve_eq_error {i : Instruction} {labels : Labels} {f : Failure} :
    i.resolve labels = .error f ↔
      ∃ label, i.labels.find? (fun name => decide (name ∉ labels.names)) = some label ∧
        f = i.location.failure (.missingLabel label labels.names) := by
  rw [resolve_eq]
  constructor
  · intro h
    split at h
    · cases h
    · next label failed =>
      cases h
      exact ⟨label, Slot.mapM_resolve_eq_error.1 failed, rfl⟩
  · rintro ⟨label, first, rfl⟩
    rw [Slot.mapM_resolve_eq_error.2 first]

/-- The labels to which an instruction refers, each with the place of the instruction. -/
def located (i : Instruction) : List (Location × String) :=
  i.labels.map fun label => (i.location, label)

/-- The labels to which resolved instructions refer have addresses. -/
lemma mem_names_of_resolveAll {is js : List Instruction} {labels : Labels}
    (ok : resolveAll is labels = .ok js) {r : Location × String} (mem : r ∈ is.flatMap located) :
    r.2 ∈ labels.names := by
  obtain ⟨i, member, reference⟩ := List.mem_flatMap.1 mem
  obtain ⟨name, refers, rfl⟩ := List.mem_map.1 reference
  obtain ⟨_, _, resolved⟩ := exists_of_mem_left (mapM_eq_ok.1 ok) member
  obtain ⟨values, filled, _⟩ := resolve_eq_ok.1 resolved
  exact Slot.mem_names_of_fill? filled name refers

/-- Instructions that are not resolved refer to a label without an address, and the failure is that
of the first such reference. -/
lemma resolveAll_eq_error {is : List Instruction} {labels : Labels} {f : Failure}
    (err : resolveAll is labels = .error f) :
    ∃ location label,
      (is.flatMap located).find? (fun r => decide (r.2 ∉ labels.names)) = some (location, label) ∧
        f = location.failure (.missingLabel label labels.names) := by
  obtain ⟨before, i, after, js, rfl, resolved, failed⟩ := mapM_eq_error.1 err
  obtain ⟨label, first, rfl⟩ := resolve_eq_error.1 failed
  refine ⟨i.location, label, ?_, rfl⟩
  -- The references of the instructions before have addresses, or these would not be resolved.
  have earlier : (before.flatMap located).find? (fun r => decide (r.2 ∉ labels.names)) = none := by
    refine List.find?_eq_none.2 fun r mem => ?_
    simpa using mem_names_of_resolveAll resolved mem
  have here : i.located.find? (fun r => decide (r.2 ∉ labels.names)) =
      some (i.location, label) := by
    rw [located, List.find?_map]
    exact Option.map_eq_some_iff.2 ⟨label, first, rfl⟩
  rw [List.flatMap_append, List.find?_append, earlier, Option.none_or, List.flatMap_cons,
    List.find?_append, here, Option.some_or]

/-- Instructions are resolved exactly if all labels to which they refer have addresses. -/
lemma resolveAll_isOk {is : List Instruction} {labels : Labels} :
    (∃ js, resolveAll is labels = .ok js) ↔ ∀ r ∈ is.flatMap located, r.2 ∈ labels.names := by
  constructor
  · rintro ⟨js, ok⟩ r mem
    exact mem_names_of_resolveAll ok mem
  · intro defined
    cases result : resolveAll is labels with
    | ok js => exact ⟨js, rfl⟩
    | error f =>
      obtain ⟨location, label, first, _⟩ := resolveAll_eq_error result
      have missing := List.find?_some first
      refine absurd (defined _ (List.mem_of_find?_eq_some first)) ?_
      simpa using missing

/-- The known values of the slots of an instruction. -/
def values (i : Instruction) : List Int :=
  i.trailing.filterMap Slot.literal?

lemma values_eq {i : Instruction} {values : List Int} (filled : i.trailing = values.map .literal) :
    i.values = values := by
  rw [Instruction.values, filled, List.filterMap_map]
  exact List.filterMap_some

/-- The words of an instruction with values in all its slots. -/
lemma words_eq_ok {i : Instruction} (fits : i.fields.Fits)
    (filled : i.trailing = i.values.map .literal) : i.words = .ok (i.fields.word :: i.values) := by
  have slots : i.trailing.mapM Slot.value = .ok i.values := by
    rw [filled, mapM_eq_ok, List.forall₂_map_left_iff, List.forall₂_same]
    exact fun _ _ => rfl
  have word : i.word = .ok i.fields.word := Fields.pack_of_fits fits
  simp only [words, slots, word]
  rfl

end Instruction

/-- The words of a program are those of its instructions one after the other. -/
lemma Program.words_eq_ok {p : Program} (all : ∀ i ∈ p.instructions,
    i.words = .ok (i.fields.word :: i.values)) :
    p.words = .ok (p.instructions.map fun i => i.fields.word :: i.values).flatten := by
  have each : p.instructions.mapM Instruction.words =
      .ok (p.instructions.map fun i => i.fields.word :: i.values) := by
    rw [mapM_eq_ok, List.forall₂_map_right_iff, List.forall₂_same]
    exact all
  rw [Program.words, each]
  rfl

end Dcpu
