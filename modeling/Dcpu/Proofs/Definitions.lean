import Dcpu.Code.LabelTable
import Mathlib.Data.List.Basic

/-!
# The definitions of a table

A label table keeps addresses and lines apart. Since the two are in step, a table is nothing but a
list of definitions: `ofDefinitions` makes a table of such a list, `definitions` gives the list
back, and the one undoes the other. What can be seen of a table is seen in the list, and to define a
label is to append its definition, unless the list has one already (`define_eq`). So all that is
said of tables elsewhere is said of their definitions.
-/

namespace Dcpu

namespace LabelTable

/-- The table with a list of definitions. -/
def ofDefinitions (ds : List Definition) : LabelTable where
  addresses := ds.map fun d => (d.name, d.address)
  lines := ds.map fun d => (d.name, d.line)
  inStep := by
    rw [List.map_map, List.map_map]
    rfl

/-- The definition of a label. -/
def find? (table : LabelTable) (name : String) : Option Definition :=
  table.definitions.find? (·.name == name)

/-! ### Tables and lists -/

/-- The table of a list gives the list back. -/
@[simp]
lemma definitions_ofDefinitions (ds : List Definition) : (ofDefinitions ds).definitions = ds := by
  rw [definitions, ofDefinitions, List.zipWith_map, List.zipWith_self]
  exact List.map_id ds

/-- Lists that are in step are the two halves of a list of definitions. -/
lemma exists_map_of_inStep {addresses : Labels} {lines : Named (Option Int)}
    (inStep : lines.map Prod.fst = addresses.map Prod.fst) :
    ∃ ds : List Definition, addresses = ds.map (fun d => (d.name, d.address)) ∧
      lines = ds.map fun d => (d.name, d.line) := by
  induction addresses generalizing lines with
  | nil =>
    rw [List.map_nil, List.map_eq_nil_iff] at inStep
    exact ⟨[], rfl, inStep⟩
  | cons entry addresses ih =>
    obtain ⟨name, address⟩ := entry
    cases lines with
    | nil => cases inStep
    | cons line lines =>
      obtain ⟨other, line⟩ := line
      obtain ⟨rfl, rest⟩ := List.cons.inj inStep
      obtain ⟨ds, rfl, rfl⟩ := ih rest
      exact ⟨⟨other, address, line⟩ :: ds, rfl, rfl⟩

/-- Every table is made of a list of definitions. -/
lemma exists_eq_ofDefinitions (table : LabelTable) : ∃ ds, table = ofDefinitions ds := by
  obtain ⟨addresses, lines, inStep⟩ := table
  obtain ⟨ds, rfl, rfl⟩ := exists_map_of_inStep inStep
  exact ⟨ds, rfl⟩

/-- The list of a table gives the table back. -/
@[simp]
lemma ofDefinitions_definitions (table : LabelTable) : ofDefinitions table.definitions = table := by
  obtain ⟨ds, rfl⟩ := table.exists_eq_ofDefinitions
  rw [definitions_ofDefinitions]

/-! ### What can be seen -/

/-- The addresses of a table are those of its definitions. -/
lemma labels_eq (table : LabelTable) :
    table.labels = table.definitions.map fun d => (d.name, d.address) := by
  obtain ⟨ds, rfl⟩ := table.exists_eq_ofDefinitions
  rw [definitions_ofDefinitions]
  rfl

/-- The lines of a table are those of its definitions. -/
lemma lines_eq (table : LabelTable) :
    table.lines = table.definitions.map fun d => (d.name, d.line) := by
  obtain ⟨ds, rfl⟩ := table.exists_eq_ofDefinitions
  rw [definitions_ofDefinitions]
  rfl

lemma names_eq (table : LabelTable) : table.names = table.definitions.map (·.name) := by
  show table.labels.map Prod.fst = _
  rw [labels_eq, List.map_map]
  rfl

/-- A name is looked up in one half of the definitions where the definition is found. -/
lemma lookup_map {α : Type} (part : Definition → α) (ds : List Definition) (name : String) :
    (ds.map fun d => (d.name, part d)).lookup name =
      (ds.find? (·.name == name)).map part := by
  induction ds with
  | nil => rfl
  | cons d ds ih =>
    rw [List.map_cons, List.lookup_cons, List.find?_cons, ih, BEq.comm]
    cases d.name == name <;> rfl

/-- The address of a label is that of its definition. -/
lemma get?_eq (table : LabelTable) (name : String) :
    table.get? name = (table.find? name).map (·.address) := by
  show table.labels.lookup name = _
  rw [labels_eq, lookup_map, find?]

/-- The line of a label is that of its definition. -/
lemma line?_eq (table : LabelTable) (name : String) :
    table.line? name = (table.find? name).map (·.line) := by
  rw [line?, lines_eq, lookup_map, find?]

lemma contains_eq (table : LabelTable) (name : String) :
    table.contains name = (table.find? name).isSome := by
  rw [contains, get?_eq, Option.isSome_map]

/-- A label without a definition is not among the names. -/
lemma find?_eq_none {table : LabelTable} {name : String} :
    table.find? name = none ↔ name ∉ table.names := by
  simp only [find?, names_eq, List.find?_eq_none, List.mem_map, not_exists, not_and, beq_iff_eq]

/-! ### Defining a label -/

/-- A new label comes last among the definitions. -/
lemma define_of_find?_eq_none {table : LabelTable} {name : String} (new : table.find? name = none)
    (address : Int) (location : Location) :
    table.define name address location =
      .ok (ofDefinitions (table.definitions ++ [{ name, address, line := location.line }])) := by
  have absent : table.contains name = false := by
    rw [contains_eq, new]
    rfl
  have fresh : name ∉ table.addresses.map Prod.fst := find?_eq_none.1 new
  have other : name ∉ table.lines.map Prod.fst := by rwa [table.inStep]
  rw [define, if_neg (by rw [absent]; exact Bool.false_ne_true)]
  refine congrArg Except.ok (LabelTable.ext ?_ ?_)
  · refine (Named.insert_of_not_mem fresh address).trans ?_
    show _ = (table.definitions ++ _).map fun d => (d.name, d.address)
    rw [List.map_append, ← labels_eq]
    rfl
  · refine (Named.insert_of_not_mem other location.line).trans ?_
    show _ = (table.definitions ++ _).map fun d => (d.name, d.line)
    rw [List.map_append, ← lines_eq]
    rfl

/-- To define a label is to append its definition, unless there is one. -/
lemma define_eq (table : LabelTable) (name : String) (address : Int) (location : Location) :
    table.define name address location =
      match table.find? name with
      | some first => .error (location.failure (.duplicateLabel name first.line))
      | none =>
        .ok (ofDefinitions (table.definitions ++ [{ name, address, line := location.line }])) := by
  cases found : table.find? name with
  | none => exact define_of_find?_eq_none found address location
  | some first =>
    have known : table.contains name = true := by
      rw [contains_eq, found]
      rfl
    rw [define, if_pos known, line?_eq, found]
    rfl

end LabelTable

end Dcpu
