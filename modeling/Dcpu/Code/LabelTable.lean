import Dcpu.Code.Labels
import Dcpu.Diagnostic
import Dcpu.Text.Quoted

/-!
# The label table

The labels that a source defines, with their addresses and the lines of their definitions, in the
order of definition. A label is defined once: a second definition is an error and changes nothing.

Addresses and lines are kept apart. The two have the same names in the same order, so a label that
has an address has a line.
-/

namespace Dcpu

/-- No addresses and no lines are in step. -/
theorem LabelTable.inStep_nil :
    ([] : Named (Option Int)).map Prod.fst = ([] : Labels).map Prod.fst :=
  rfl

/-- The addresses of labels and the lines of their definitions. -/
@[ext]
structure LabelTable where
  addresses : Labels := []
  lines : Named (Option Int) := []
  inStep : lines.map Prod.fst = addresses.map Prod.fst := by exact Dcpu.LabelTable.inStep_nil
  deriving DecidableEq, Repr

/-- The definition of a label. -/
structure Definition where
  name : String
  address : Int
  line : Option Int := none
  deriving DecidableEq, Repr

namespace LabelTable

/-- The definitions in their order. -/
def definitions (table : LabelTable) : List Definition :=
  List.zipWith (fun (name, address) (_, line) => { name, address, line })
    table.addresses table.lines

/-- The address of a label. -/
def get? (table : LabelTable) (name : String) : Option Int :=
  table.addresses.get? name

/-- The line on which a label is defined, if the label is defined and its line is known. -/
def line? (table : LabelTable) (name : String) : Option (Option Int) :=
  table.lines.lookup name

/-- Tells whether a label is defined. -/
def contains (table : LabelTable) (name : String) : Bool :=
  (table.get? name).isSome

/-- Adds a definition. It fails if the label is defined already. -/
def define (table : LabelTable) (name : String) (address : Int) (location : Location := {}) :
    Except Failure LabelTable :=
  if table.contains name then
    .error (location.failure (.duplicateLabel name (table.line? name).join))
  else .ok {
    addresses := Named.insert table.addresses name address
    lines := Named.insert table.lines name location.line
    inStep := Named.map_fst_insert_congr table.inStep name _ _ }

/-- The number of labels. -/
def size (table : LabelTable) : Nat :=
  table.addresses.length

/-- The names of the labels in the order of definition. -/
def names (table : LabelTable) : List String :=
  table.addresses.names

/-- The labels with their addresses. -/
def labels (table : LabelTable) : Labels :=
  table.addresses

/-- One entry of a table as text. -/
def renderEntry (entry : String × Int) : Except Failure String :=
  if Text.isWritable entry.2 then .ok s!"{Text.quote entry.1}: {Text.decimal entry.2}"
  else .error .longValue

/-- A table as text. -/
def render (table : LabelTable) : Except Failure String :=
  (table.addresses.mapM renderEntry).map fun entries =>
    "LabelTable(\x7b" ++ ", ".intercalate entries ++ "\x7d)"

end LabelTable

end Dcpu
