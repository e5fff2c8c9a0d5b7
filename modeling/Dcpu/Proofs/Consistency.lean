import Dcpu.Assembly.Session
import Dcpu.Proofs.Assembling

/-!
# The state of an assembler

Whatever is done with an assembler, its fields belong together (`Assembler.Consistent`): the address
is the sum of the sizes of the instructions, instructions and labels follow the lines of the source,
and a program that is there is the one that the fields describe.

A scan can stop at any line, between the label and the instruction of the line too. So the invariant
is kept by each of the two (`Scan.Before.withLabel`, `Scan.Before.withInstruction`), with a bound
for the line numbers of either kind, and a run keeps it wherever it ends (`Scan.coherent_run`).
Resolving moves nothing, and instructions that are resolved stay as they are
(`Instruction.resolveAll_of_isResolved`), which is why the program survives another second pass.
-/

namespace Dcpu
open Results
open Source (Line)

/-! ### Labels and instructions in the order of lines -/

/-- Tells whether line numbers are known and strictly increasing. -/
def Increasing (lines : List (Option Int)) : Prop :=
  ∃ numbers : List Int, lines = numbers.map some ∧ numbers.Pairwise (· < ·)

lemma Increasing.append {lines : List (Option Int)} {n : Int} (inc : Increasing lines)
    (above : ∀ k, some k ∈ lines → k < n) : Increasing (lines ++ [some n]) := by
  obtain ⟨numbers, rfl, ordered⟩ := inc
  refine ⟨numbers ++ [n], by simp, ?_⟩
  rw [List.pairwise_append]
  refine ⟨ordered, List.pairwise_singleton _ _, ?_⟩
  intro k mem m last
  cases List.mem_singleton.1 last
  exact above k (List.mem_map_of_mem mem)

/-- Labels, instructions and the address behind them, as the lines of a source leave them. -/
structure Coherent (table : LabelTable) (instructions : List Instruction) (address : Nat) :
    Prop where
  total : address = (instructions.map Instruction.size).sum
  instructionLines : Increasing (instructions.map (·.location.line))
  names : table.names.Nodup
  definitionLines : Increasing (table.definitions.map (·.line))
  ordered : (table.definitions.map (·.address)).Pairwise (· ≤ ·)
  bounded : ∀ d ∈ table.definitions, 0 ≤ d.address ∧ d.address ≤ address

namespace Coherent

variable {table : LabelTable} {instructions : List Instruction} {address : Nat}

lemma empty : Coherent {} [] 0 where
  total := rfl
  instructionLines := ⟨[], rfl, .nil⟩
  names := .nil
  definitionLines := ⟨[], rfl, .nil⟩
  ordered := .nil
  bounded := fun _ mem => by cases mem

/-- A new label is defined behind the instructions, on a line behind the labels. -/
lemma define {name : String} {n : Int} (coh : Coherent table instructions address)
    (new : name ∉ table.names) (above : ∀ d ∈ table.definitions, ∀ k ∈ d.line, k < n) :
    Coherent (.ofDefinitions (table.definitions ++ [{ name, address, line := some n }]))
      instructions address where
  total := coh.total
  instructionLines := coh.instructionLines
  names := by
    rw [LabelTable.names_eq, LabelTable.definitions_ofDefinitions, List.map_append,
      ← LabelTable.names_eq]
    exact List.nodup_append_comm.1 (List.nodup_cons.2 ⟨new, coh.names⟩)
  definitionLines := by
    rw [LabelTable.definitions_ofDefinitions, List.map_append]
    apply coh.definitionLines.append
    intro k mem
    obtain ⟨d, member, e⟩ := List.mem_map.1 mem
    exact above d member k e
  ordered := by
    rw [LabelTable.definitions_ofDefinitions, List.map_append, List.pairwise_append]
    refine ⟨coh.ordered, List.pairwise_singleton _ _, ?_⟩
    intro a mem b last
    obtain ⟨d, member, rfl⟩ := List.mem_map.1 mem
    cases List.mem_singleton.1 last
    exact (coh.bounded d member).2
  bounded := by
    intro d mem
    rw [LabelTable.definitions_ofDefinitions, List.mem_append] at mem
    rcases mem with mem | mem
    · exact coh.bounded d mem
    · cases List.mem_singleton.1 mem
      exact ⟨Int.natCast_nonneg _, le_refl _⟩

/-- An instruction comes behind the others, from a line behind theirs. -/
lemma emit {i : Instruction} {n : Int} (coh : Coherent table instructions address)
    (line : i.location.line = some n)
    (above : ∀ j ∈ instructions, ∀ k ∈ j.location.line, k < n) :
    Coherent table (instructions ++ [i]) (address + i.size) where
  total := by
    rw [List.map_append, List.sum_append, ← coh.total]
    rfl
  instructionLines := by
    rw [List.map_append, List.map_singleton, line]
    apply coh.instructionLines.append
    intro k mem
    obtain ⟨j, member, e⟩ := List.mem_map.1 mem
    exact above j member k e
  names := coh.names
  definitionLines := coh.definitionLines
  ordered := coh.ordered
  bounded := by
    intro d mem
    obtain ⟨nonneg, le⟩ := coh.bounded d mem
    omega

/-- Only the sizes and the places of instructions count. -/
lemma congr {others : List Instruction} (coh : Coherent table instructions address)
    (sizes : others.map Instruction.size = instructions.map Instruction.size)
    (places : others.map Instruction.location = instructions.map Instruction.location) :
    Coherent table others address where
  total := by rw [sizes, ← coh.total]
  instructionLines := by
    have lines := congrArg (List.map Location.line) places
    rw [List.map_map, List.map_map] at lines
    exact lines ▸ coh.instructionLines
  names := coh.names
  definitionLines := coh.definitionLines
  ordered := coh.ordered
  bounded := coh.bounded

end Coherent

/-! ### Scanning -/

namespace Scan

/-- A coherent scan, with all instructions from before one line and all labels from before
another. -/
structure Before (instructionLine labelLine : Nat) (s : Scan) : Prop where
  coherent : Coherent s.table s.instructions.toList s.address
  instructions : ∀ i ∈ s.instructions.toList, ∀ k ∈ i.location.line, k < instructionLine
  definitions : ∀ d ∈ s.table.definitions, ∀ k ∈ d.line, k < labelLine

namespace Before

variable {s : Scan} {m n : Nat}

lemma mono {m' n' : Nat} (inv : s.Before m n) (hm : m ≤ m') (hn : n ≤ n') : s.Before m' n' where
  coherent := inv.coherent
  instructions := fun i mem k e => by
    have := inv.instructions i mem k e
    omega
  definitions := fun d mem k e => by
    have := inv.definitions d mem k e
    omega

lemma withLabel {line : Line} (inv : s.Before m n) (place : line.location.line = some (n : Int))
    (new : ∀ name ∈ line.label, name ∉ s.table.names) : (s.withLabel line).Before m (n + 1) := by
  unfold Scan.withLabel
  cases label : line.label with
  | none => exact inv.mono (le_refl m) (Nat.le_succ n)
  | some name =>
    rw [place]
    refine ⟨inv.coherent.define (new name label) inv.definitions, inv.instructions, ?_⟩
    intro d mem k e
    change d ∈ (LabelTable.ofDefinitions _).definitions at mem
    rw [LabelTable.definitions_ofDefinitions, List.mem_append] at mem
    rcases mem with mem | mem
    · have := inv.definitions d mem k e
      omega
    · cases List.mem_singleton.1 mem
      cases e
      omega

lemma withInstruction {line : Line} {o : Option Instruction} (inv : s.Before m n)
    (place : ∀ i ∈ o, i.location.line = some (m : Int)) :
    (s.withInstruction ⟨line, o⟩).Before (m + 1) n := by
  cases o with
  | none => exact inv.mono (Nat.le_succ m) (le_refl n)
  | some i =>
    have here := place i rfl
    have added : (s.withInstruction ⟨line, some i⟩).instructions.toList =
        s.instructions.toList ++ [i] :=
      Array.toList_push
    refine ⟨?_, ?_, inv.definitions⟩
    · rw [added]
      exact inv.coherent.emit here inv.instructions
    · rw [added]
      intro j mem k e
      rcases List.mem_append.1 mem with mem | mem
      · have := inv.instructions j mem k e
        omega
      · cases List.mem_singleton.1 mem
        rw [here] at e
        cases e
        omega

end Before

/-- A line is scanned to a coherent state, also where it fails. -/
lemma before_line {s s' : Scan} {number : Nat} {text : String} {o : Option Failure}
    (inv : s.Before number number) (step : s.line number text = (s', o)) :
    s'.Before (number + 1) (number + 1) := by
  have stay := inv.mono (Nat.le_succ number) (Nat.le_succ number)
  cases o with
  | none =>
    obtain ⟨e, read, new, rfl⟩ := line_eq_none.1 step
    obtain ⟨line, instruction⟩ := Entry.location_of_read read
    have labelled := inv.withLabel (by rw [line]; rfl) new
    apply labelled.withInstruction
    intro i mem
    rw [instruction i mem]
    rfl
  | some f =>
    cases lineFails_of_line step with
    | shape _ => exact stay
    | label _ _ _ => exact stay
    | instruction parsed new _ =>
      have labelled := inv.withLabel (by rw [Line.location_of_parse parsed]; rfl) new
      exact labelled.mono (Nat.le_succ number) (le_refl _)

/-- Lines are scanned to a coherent state, wherever the run ends. -/
lemma coherent_run {s : Scan} {number : Nat} (inv : s.Before number number) (texts : List String) :
    Coherent (s.run number texts).1.table (s.run number texts).1.instructions.toList
      (s.run number texts).1.address := by
  induction texts generalizing s number with
  | nil => exact inv.coherent
  | cons text texts ih =>
    simp only [run]
    split
    · next s' first => exact ih (before_line inv first)
    · next s' f first => exact (before_line inv first).coherent

lemma coherent_ofSource (source : String) :
    Coherent (ofSource source).1.table (ofSource source).1.instructions.toList
      (ofSource source).1.address := by
  apply coherent_run
  exact ⟨Coherent.empty, (fun _ mem => by cases mem), (fun _ mem => by cases mem)⟩

end Scan

/-! ### Resolving -/

namespace Instruction

/-- Resolved instructions have no references. -/
lemma isResolved_of_resolve {i j : Instruction} {labels : Labels}
    (resolved : i.resolve labels = .ok j) : j.isResolved = true := by
  obtain ⟨values, _, rfl⟩ := resolve_eq_ok.1 resolved
  rw [isResolved_iff, Instruction.labels, List.filterMap_map]
  exact List.filterMap_eq_nil_iff.2 fun _ _ => rfl

lemma location_of_resolve {i j : Instruction} {labels : Labels}
    (resolved : i.resolve labels = .ok j) : j.location = i.location := by
  obtain ⟨values, _, rfl⟩ := resolve_eq_ok.1 resolved
  rfl

/-- Instructions that are resolved stay as they are. -/
lemma resolveAll_of_isResolved {is : List Instruction} (done : ∀ i ∈ is, i.isResolved = true)
    (labels : Labels) : resolveAll is labels = .ok is := by
  rw [resolveAll, mapM_eq_ok, List.forall₂_same]
  exact fun i mem => if_pos (done i mem)

end Instruction

/-! ### Assemblers -/

namespace Outcome

variable {σ ε α β : Type} {o : Outcome σ ε α} {next : σ → α → Outcome σ ε β}

/-- What holds after two calls in a row if it holds after the first and is kept by the second. -/
lemma andThen_state {P : σ → Prop} (first : P o.state)
    (second : ∀ a, o.result = .ok a → P (next o.state a).state) : P (o.andThen next).state := by
  cases result : o.result with
  | error e =>
    rw [andThen_of_error result]
    exact first
  | ok a =>
    rw [andThen_of_ok result]
    exact second a result

end Outcome

namespace Assembler

/-- An assembler whose fields belong together. -/
structure Consistent (a : Assembler) : Prop where
  coherent : Coherent a.table a.instructions a.address
  program : ∀ p, a.program = some p → (∀ i ∈ p.instructions, i.isResolved = true) ∧
    p.instructions = a.instructions ∧ p.labels = a.table.labels

/-- The first pass replaces all that the assembler held by what the scan leaves. -/
lemma state_scan (a : Assembler) (source : String) :
    (a.scan source).state =
      { verbose := a.verbose, table := (Scan.ofSource source).1.table,
        instructions := (Scan.ofSource source).1.instructions.toList,
        address := (Scan.ofSource source).1.address, program := none } := by
  unfold scan
  rcases Scan.ofSource source with ⟨s, _ | f⟩ <;> rfl

/-- An assembler gives what the source gives on its own. A source that is not assembled leaves what
the first pass has left; a program takes the place of the instructions, with their references filled
in. -/
lemma outcome_assemble (a : Assembler) (source : String) :
    (a.assemble source).result = Dcpu.assemble source ∧
      (a.assemble source).state =
        match Dcpu.assemble source with
        | .error _ => (a.scan source).state
        | .ok p => { (a.scan source).state with
            instructions := p.instructions, program := some p } := by
  rw [assemble_eq]
  unfold assemble scan
  rcases Scan.ofSource source with ⟨s, _ | f⟩
  · simp only [Outcome.andThen, resolve]
    cases Instruction.resolveAll s.instructions.toList s.table.labels with
    | error f => exact ⟨rfl, rfl⟩
    | ok is => exact ⟨rfl, rfl⟩
  · exact ⟨rfl, rfl⟩

lemma result_assemble (a : Assembler) (source : String) :
    (a.assemble source).result = Dcpu.assemble source :=
  (a.outcome_assemble source).1

lemma state_of_error {source : String} {f : Failure} (err : Dcpu.assemble source = .error f)
    (a : Assembler) : (a.assemble source).state = (a.scan source).state := by
  rw [(a.outcome_assemble source).2, err]

lemma state_of_ok {source : String} {p : Program} (ok : Dcpu.assemble source = .ok p)
    (a : Assembler) : (a.assemble source).state =
      { (a.scan source).state with instructions := p.instructions, program := some p } := by
  rw [(a.outcome_assemble source).2, ok]

lemma consistent_scan (a : Assembler) (source : String) : (a.scan source).state.Consistent := by
  rw [state_scan]
  exact ⟨Scan.coherent_ofSource source, fun _ h => by cases h⟩

/-- The second pass leaves a consistent assembler, and resolved instructions if it succeeds. -/
lemma consistent_resolve {a : Assembler} (inv : a.Consistent) :
    a.resolve.state.Consistent ∧
      (a.resolve.result = .ok () → ∀ i ∈ a.resolve.state.instructions, i.isResolved = true) := by
  unfold resolve
  cases resolved : Instruction.resolveAll a.instructions a.table.labels with
  | error f => exact ⟨inv, fun h => by cases h⟩
  | ok js =>
    have each := mapM_eq_ok.1 resolved
    refine ⟨⟨?_, ?_⟩, ?_⟩
    · have places := map_eq_map_iff.2
        (each.imp fun _ _ ok => (Instruction.location_of_resolve ok).symm)
      exact inv.coherent.congr (Instruction.map_size_of_resolveAll resolved) places.symm
    · intro p held
      obtain ⟨done, same, labels⟩ := inv.program p held
      rw [← same, Instruction.resolveAll_of_isResolved done] at resolved
      cases resolved
      exact ⟨done, rfl, labels⟩
    · intro _ j mem
      obtain ⟨i, _, ok⟩ := exists_of_mem_right each mem
      exact Instruction.isResolved_of_resolve ok

lemma consistent_finish {a : Assembler} (inv : a.Consistent)
    (done : ∀ i ∈ a.instructions, i.isResolved = true) : a.finish.state.Consistent where
  coherent := inv.coherent
  program := by
    intro p held
    cases held
    exact ⟨done, rfl, rfl⟩

lemma consistent_assemble (a : Assembler) (source : String) :
    (a.assemble source).state.Consistent := by
  apply Outcome.andThen_state
  · exact a.consistent_scan source
  · intro _ _
    obtain ⟨inv, done⟩ := consistent_resolve (a.consistent_scan source)
    apply Outcome.andThen_state
    · exact inv
    · intro _ ok
      exact consistent_finish inv (done ok)

end Assembler

/-! ### Sessions -/

namespace Session

/-- What can happen to a session: the calls, and a change of the files by others. -/
inductive Step where
  | assemble (source : String)
  /-- Assembles what a stream gives; there is nothing if the stream cannot be read. -/
  | assembleStream (source : Option String)
  | assembleFile (name : String) (output : Option String)
  | scan (source : String)
  | resolve
  | write (name : String)
  | hexDump
  | listing
  | changeFiles (files : Files.Tree)

/-- The session after a step, whether the step succeeds or fails. -/
def after (s : Session) : Step → Session
  | .assemble source => (s.assemble source).state
  | .assembleStream source => (source.map fun source => (s.assemble source).state).getD s
  | .assembleFile name output => (s.assembleFile name output).state
  | .scan source => { s with assembler := (s.assembler.scan source).state }
  | .resolve => { s with assembler := s.assembler.resolve.state }
  | .write name => (s.write name).state
  | .hexDump | .listing => s
  | .changeFiles files => { s with files }

/-- The session after steps. -/
def run (s : Session) (steps : List Step) : Session :=
  steps.foldl after s

lemma assembler_write (s : Session) (name : String) :
    (s.write name).state.assembler = s.assembler := by
  unfold write
  split
  · rfl
  · split
    · rfl
    · split <;> rfl

lemma assembler_writeAloud (s : Session) (name : String) :
    (s.writeAloud name).state.assembler = s.assembler := by
  apply Outcome.andThen_state (P := fun t : Session => t.assembler = s.assembler)
  · exact s.assembler_write name
  · exact fun _ _ => s.assembler_write name

/-- An assembler that is to assemble a file assembles its source, if there is one. Writing the
program does not change it. -/
lemma assembler_assembleFile (s : Session) (name : String) (output : Option String) :
    (s.assembleFile name output).state.assembler =
      match (s.load name).result with
      | .error _ => s.assembler
      | .ok source => (s.assembler.assemble source).state := by
  unfold assembleFile
  cases read : (s.load name).result with
  | error e =>
    rw [Outcome.andThen_of_error read]
    rfl
  | ok source =>
    rw [Outcome.andThen_of_ok read]
    apply Outcome.andThen_state
      (P := fun t : Session => t.assembler = (s.assembler.assemble source).state)
    · rfl
    · intro program _
      split
      · rfl
      · next output _ =>
        have written := (s.assemble source).state.assembler_writeAloud output
        apply Outcome.andThen_state
          (P := fun t : Session => t.assembler = (s.assembler.assemble source).state)
        · exact written
        · exact fun _ _ => written

lemma consistent_assembleFile {s : Session} (inv : s.assembler.Consistent) (name : String)
    (output : Option String) : (s.assembleFile name output).state.assembler.Consistent := by
  rw [assembler_assembleFile]
  cases (s.load name).result with
  | error e => exact inv
  | ok source => exact s.assembler.consistent_assemble source

lemma consistent_after {s : Session} (inv : s.assembler.Consistent) (step : Step) :
    (s.after step).assembler.Consistent := by
  cases step with
  | assemble source => exact s.assembler.consistent_assemble source
  | assembleStream source =>
    cases source with
    | none => exact inv
    | some source => exact s.assembler.consistent_assemble source
  | assembleFile name output => exact consistent_assembleFile inv name output
  | scan source => exact s.assembler.consistent_scan source
  | resolve => exact (Assembler.consistent_resolve inv).1
  | write name =>
    show (s.write name).state.assembler.Consistent
    rw [assembler_write]
    exact inv
  | hexDump => exact inv
  | listing => exact inv
  | changeFiles files => exact inv

lemma run_keeps_consistent {s : Session} (inv : s.assembler.Consistent) (steps : List Step) :
    (s.run steps).assembler.Consistent := by
  induction steps generalizing s with
  | nil => exact inv
  | cons step steps ih => exact ih (consistent_after inv step)

/-- After any steps, the assembler of a session that was fresh is consistent. -/
theorem consistent_run (verbose : Bool) (files : Files.Tree) (steps : List Step) :
    (run { assembler := { verbose }, files } steps).assembler.Consistent := by
  apply run_keeps_consistent
  exact ⟨Coherent.empty, fun _ h => by cases h⟩

end Session

end Dcpu
