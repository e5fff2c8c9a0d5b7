import Dcpu.Assembly.Outcome
import Dcpu.Assembly.Scan
import Dcpu.Code.Program

/-!
# The assembler

An assembler holds the labels and instructions of the source it has worked on last, and the program
if that source was assembled to the end. Assembling is scanning the source and then resolving the
references of the instructions to labels.

A scan starts from nothing and replaces all that the assembler held. A resolution that fails leaves
the instructions as they were.
-/

namespace Dcpu

/-- The state of an assembler. -/
structure Assembler where
  verbose : Bool := false
  table : LabelTable := {}
  instructions : List Instruction := []
  address : Nat := 0
  program : Option Program := none
  deriving DecidableEq, Repr

namespace Assembler

/-- The events that are told: all of them or none. -/
def report (a : Assembler) (events : List Event) : List Event :=
  if a.verbose then events else []

/-- Tells a message. -/
def tell (a : Assembler) (text : String) : Outcome Assembler Failure Unit :=
  { state := a, events := a.report [.message text], result := .ok () }

/-- The first pass: scans a source. -/
def scan (a : Assembler) (source : String) : Outcome Assembler Failure Unit :=
  let (s, failure) := Scan.ofSource source
  let told := .encodingStarted :: s.events.toList
  let state : Assembler :=
    { verbose := a.verbose, table := s.table, instructions := s.instructions.toList,
      address := s.address, program := none }
  match failure with
  | some failure => { state, events := a.report told, result := .error failure }
  | none =>
    let totals := [.labelsCounted s.table.size, .wordsCounted s.address]
    { state, events := a.report (told ++ totals), result := .ok () }

/-- The number of references in instructions. -/
def referenceCount (instructions : List Instruction) : Nat :=
  instructions.foldr (fun i count => i.references.length + count) 0

/-- The second pass: resolves the references of the instructions. -/
def resolve (a : Assembler) : Outcome Assembler Failure Unit :=
  match Instruction.resolveAll a.instructions a.table.labels with
  | .error failure =>
    { state := a, events := a.report [.resolvingStarted], result := .error failure }
  | .ok instructions =>
    { state := { a with instructions },
      events := a.report [.resolvingStarted, .referencesResolved (referenceCount a.instructions),
        .instructionsCounted instructions.length],
      result := .ok () }

/-- Keeps the instructions and labels as the program. -/
def finish (a : Assembler) : Outcome Assembler Failure Program :=
  let program := { instructions := a.instructions, labels := a.table.labels }
  { state := { a with program := some program }, result := .ok program }

/-- Assembles a source. -/
def assemble (a : Assembler) (source : String) : Outcome Assembler Failure Program :=
  (a.scan source).andThen fun a () => a.resolve.andThen fun a () => a.finish

end Assembler

/-- Assembles a source on its own. -/
def assemble (source : String) : Except Failure Program :=
  (Assembler.assemble {} source).result

end Dcpu
