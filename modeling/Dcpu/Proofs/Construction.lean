import Dcpu.Proofs.Drafting
import Dcpu.Proofs.References

/-!
# Instructions under construction, step by step

A draft after any steps, of which some may fail: operands are encoded, words and references are
added, parts are assigned and instructions are built. A step adds at most one word behind the others
and gives at most one part a new value, or it fails and changes nothing (`Step.work_cases`). Which
word and which value this is can be told from the step alone (`Step.slot?`, `Step.value?`), so the
instruction that is built is told by the steps alone (`accumulated`, `build_run`).
-/

namespace Dcpu
open Results
open Source (Operand)

/-- An operand that refers to a label can always be encoded. -/
lemma Source.Operand.label?_of_code?_eq_none {o : Operand} (uncoded : o.code? = none) :
    o.label? = none := by
  match o with
  | .direct (.label _) | .indirect (.label _) => cases uncoded
  | .direct (.integer _) | .direct (.register _) | .indirect (.integer _)
  | .indirect (.register _) | .offset .. | .invalid _ => rfl

namespace Drafting

variable {α β : Type} {d d' : Draft} {work : Drafting α}

lemma map_of_ok {a : α} (ran : work d = .ok a d') (f : α → β) : (f <$> work) d = .ok (f a) d' := by
  show EStateM.map f work d = _
  rw [EStateM.map, ran]

lemma map_of_error {e : Failure} (ran : work d = .error e d') (f : α → β) :
    (f <$> work) d = .error e d' := by
  show EStateM.map f work d = _
  rw [EStateM.map, ran]

lemma extend_of_isWord {value : Int} (word : IsWord value) (d : Draft) :
    extend value d = .ok () (d.append [.literal value]) := by
  rw [extend_eq, Draft.extend_of_isWord word]
  rfl

lemma extend_of_not_isWord {value : Int} (other : ¬IsWord value) (d : Draft) :
    extend value d = .error (.valueRange value d.location) d := by
  rw [extend_eq, Draft.extend_of_not_isWord other]
  rfl

end Drafting

namespace Draft

/-! ### Parts -/

/-- What can be assigned in a draft: all but the words at its end. -/
inductive Part where
  | line
  | text
  | opcode
  | a
  | b
  deriving DecidableEq, Repr

namespace Part

/-- The values of a part. -/
def Value : Part → Type
  | line => Option Int
  | text => Option String
  | opcode | a | b => Int

/-- The value of a part in a draft. -/
def get (d : Draft) : (part : Part) → part.Value
  | line => d.location.line
  | text => d.location.text
  | opcode => d.fields.opcode
  | a => d.fields.a
  | b => d.fields.b

/-- The draft with a new value of a part. -/
def set (d : Draft) : (part : Part) → part.Value → Draft
  | line, value => { d with location.line := value }
  | text, value => { d with location.text := value }
  | opcode, value => { d with fields.opcode := value }
  | a, value => { d with fields.a := value }
  | b, value => { d with fields.b := value }

end Part

/-! ### Steps -/

/-- A step of the work on a draft. -/
inductive Step where
  | operand (token : String)
  | extend (value : Int)
  | refer (label : String)
  | assign (part : Part) (value : part.Value)
  | build

/-- What a step gives back. -/
inductive Answer where
  | done
  | code (code : Nat)
  | instruction (instruction : Instruction)
  deriving DecidableEq, Repr

namespace Step

/-- Takes a step. -/
def work : Step → Drafting Answer
  | operand token => Answer.code <$> Drafting.operand token
  | extend value => (fun _ => .done) <$> Drafting.extend value
  | refer label => (fun _ => .done) <$> Drafting.refer label
  | assign part value => (fun _ => .done) <$> modify fun d => part.set d value
  | build => (fun d => .instruction d.build) <$> get

/-- The word that a step adds. A step that fails adds none. -/
def slot? : Step → Option Slot
  | operand token => (Operand.ofToken token).toOption.bind fun o => o.code?.bind fun _ => o.slot?
  | extend value => if IsWord value then some (.literal value) else none
  | refer label => some (.reference label)
  | assign .. | build => none

/-- The value that a step gives a part. -/
def value? (part : Part) : Step → Option part.Value
  | assign other value => if same : other = part then some (same ▸ value) else none
  | operand _ | extend _ | refer _ | build => none

/-- The label to which a step refers, directly or by an operand. -/
def label? : Step → Option String
  | operand token => Source.reference? token
  | refer label => some label
  | extend _ | assign .. | build => none

/-- An operand adds its word if it has a code. -/
lemma slot?_operand_eq_some {token : String} {slot : Slot} :
    (operand token).slot? = some slot ↔
      ∃ o c, Operand.ofToken token = .ok o ∧ o.code? = some c ∧ o.slot? = some slot := by
  simp only [slot?, Option.bind_eq_some_iff, toOption_eq_some, exists_and_left]

/-- A value that a step adds is a word. -/
lemma isWord_of_slot? {step : Step} {value : Int} (slot : step.slot? = some (.literal value)) :
    IsWord value := by
  cases step with
  | operand token =>
    obtain ⟨o, c, _, code, word⟩ := slot?_operand_eq_some.1 slot
    exact Operand.isWord_of_slot? code word
  | extend value =>
    simp only [slot?] at slot
    split at slot
    · next word =>
      cases slot
      exact word
    · cases slot
  | refer | assign | build => cases slot

/-- A step that refers to a label adds the reference and no other step does. -/
lemma label?_slot? (step : Step) : step.slot?.bind Slot.label? = step.label? := by
  cases step with
  | operand token =>
    simp only [slot?, label?, Source.reference?]
    cases (Operand.ofToken token).toOption with
    | none => rfl
    | some o =>
      simp only [Option.bind_some]
      cases code : o.code? with
      | none => exact (Operand.label?_of_code?_eq_none code).symm
      | some c => exact o.label?_slot?
  | extend value =>
    simp only [slot?]
    split <;> rfl
  | refer | assign | build => rfl

/-- Relates the drafts before and after a step: the word of the step is added behind the others, and
the part that the step assigns has its new value. -/
structure Leads (step : Step) (d d' : Draft) : Prop where
  trailing : d'.trailing = d.trailing ++ step.slot?.toList
  parts : ∀ part, part.get d' = (step.value? part).getD (part.get d)

/-- A step that adds no word and assigns nothing leaves the draft as it is. -/
lemma leads_self {step : Step} (d : Draft) (wordless : step.slot? = none)
    (unassigned : ∀ part, step.value? part = none) : step.Leads d d where
  trailing := by
    rw [wordless]
    exact (List.append_nil _).symm
  parts := by
    intro part
    rw [unassigned]
    rfl

/-- A step that assigns nothing leads to the draft with its word. -/
lemma leads_append (step : Step) (d : Draft) (unassigned : ∀ part, step.value? part = none) :
    step.Leads d (d.append step.slot?.toList) where
  trailing := rfl
  parts := by
    intro part
    rw [unassigned]
    cases part <;> rfl

/-- Assigning a part changes neither the words nor the other parts. -/
lemma leads_assign (d : Draft) (part : Part) (value : part.Value) :
    (assign part value).Leads d (part.set d value) where
  trailing := by
    rw [slot?, Option.toList_none, List.append_nil]
    cases part <;> rfl
  parts := by
    intro other
    cases part <;> cases other <;> rfl

/-- A step succeeds and leads to the next draft, or it fails, adds no word and changes nothing. -/
lemma work_cases (step : Step) (d : Draft) :
    (∃ answer d', step.work d = .ok answer d' ∧ step.Leads d d') ∨
      ∃ f, step.work d = .error f d ∧ step.slot? = none ∧ step.Leads d d := by
  cases step with
  | operand token =>
    cases ran : Drafting.operand token d with
    | ok c d' =>
      obtain ⟨o, read, code, rfl⟩ := Drafting.operand_eq_ok.1 ran
      have word : (operand token).slot? = o.slot? := by
        simp only [slot?, read, Except.toOption, Option.bind_some, code]
      refine .inl ⟨.code c, _, Drafting.map_of_ok ran _, ?_⟩
      rw [← word]
      exact leads_append (operand token) d fun _ => rfl
    | error f d' =>
      cases Drafting.draft_of_operand_eq_error ran
      have wordless : (operand token).slot? = none := by
        rw [Option.eq_none_iff_forall_ne_some]
        intro slot added
        obtain ⟨o, c, read, code, _⟩ := slot?_operand_eq_some.1 added
        rw [Drafting.operand_eq_ok.2 ⟨o, read, code, rfl⟩] at ran
        cases ran
      exact .inr ⟨f, Drafting.map_of_error ran _, wordless, leads_self d wordless fun _ => rfl⟩
  | extend value =>
    by_cases word : IsWord value
    · have ran := Drafting.extend_of_isWord word d
      have added : (extend value).slot? = some (.literal value) := if_pos word
      have leads := leads_append (extend value) d fun _ => rfl
      rw [added] at leads
      exact .inl ⟨.done, _, Drafting.map_of_ok ran _, leads⟩
    · have ran := Drafting.extend_of_not_isWord word d
      have wordless : (extend value).slot? = none := if_neg word
      exact .inr ⟨_, Drafting.map_of_error ran _, wordless, leads_self d wordless fun _ => rfl⟩
  | refer label => exact .inl ⟨.done, d.refer label, rfl, leads_append (refer label) d fun _ => rfl⟩
  | assign part value =>
    exact .inl ⟨.done, part.set d value, rfl, leads_assign d part value⟩
  | build => exact .inl ⟨.instruction d.build, d, rfl, leads_self d rfl fun _ => rfl⟩

end Step

/-! ### Runs -/

/-- The draft after a step, whether the step succeeds or fails. -/
def after (d : Draft) (step : Step) : Draft :=
  match step.work d with
  | .ok _ d => d
  | .error _ d => d

/-- The draft after steps, of which the first is taken on a fresh draft at a place. -/
def run (location : Location) (steps : List Step) : Draft :=
  steps.foldl after { location }

/-- The last value that steps give a part, or the value that it had before. -/
def latest (part : Part) (initial : part.Value) (steps : List Step) : part.Value :=
  (steps.filterMap (Step.value? part)).getLast?.getD initial

/-- The instruction that steps make: the last values of its parts, and the words of all steps. -/
def accumulated (location : Location) (steps : List Step) : Instruction where
  location := {
    line := latest .line location.line steps
    text := latest .text location.text steps }
  fields := {
    opcode := latest .opcode (0 : Int) steps
    a := latest .a (0 : Int) steps
    b := latest .b (0 : Int) steps }
  trailing := steps.filterMap Step.slot?

lemma leads_after (d : Draft) (step : Step) : step.Leads d (d.after step) := by
  rcases step.work_cases d with ⟨answer, d', ran, leads⟩ | ⟨f, ran, _, leads⟩
  · rw [after, ran]
    exact leads
  · rw [after, ran]
    exact leads

lemma after_of_error {d d' : Draft} {step : Step} {f : Failure} (ran : step.work d = .error f d') :
    d.after step = d := by
  rcases step.work_cases d with ⟨answer, _, ok, _⟩ | ⟨_, err, _, _⟩
  · rw [ok] at ran
    cases ran
  · rw [after, err]

lemma run_append (location : Location) (steps : List Step) (next : Step) :
    run location (steps ++ [next]) = (run location steps).after next := by
  rw [run, List.foldl_append]
  rfl

lemma latest_append (part : Part) (initial : part.Value) (steps : List Step) (next : Step) :
    latest part initial (steps ++ [next]) =
      (next.value? part).getD (latest part initial steps) := by
  rw [latest, filterMap_append_singleton, List.getLast?_append]
  cases next.value? part with
  | none => rfl
  | some value => rfl

/-- After any steps the words of a draft are those of the steps. -/
lemma trailing_run (location : Location) (steps : List Step) :
    (run location steps).trailing = steps.filterMap Step.slot? := by
  induction steps using List.reverseRecOn with
  | nil => rfl
  | append_singleton steps next ih =>
    rw [run_append, (leads_after _ next).trailing, ih, filterMap_append_singleton]

/-- After any steps a part of a draft has the last value that was assigned to it. -/
lemma get_run (location : Location) (steps : List Step) (part : Part) :
    part.get (run location steps) = latest part (part.get { location }) steps := by
  induction steps using List.reverseRecOn with
  | nil => rfl
  | append_singleton steps next ih =>
    rw [run_append, (leads_after _ next).parts, ih, latest_append]

/-- The instruction that is built after any steps is told by the steps. -/
lemma build_run (location : Location) (steps : List Step) :
    (run location steps).build = accumulated location steps := by
  have parts (d : Draft) : d.build =
      ⟨⟨Part.get d .line, Part.get d .text⟩,
        ⟨Part.get d .opcode, Part.get d .a, Part.get d .b⟩, d.trailing⟩ := rfl
  rw [parts]
  simp only [get_run, trailing_run]
  rfl

/-- What a draft holds after steps from a place on: the values behind the instruction word fit into
words, the references are those of the steps in their order, and the instruction that is built has
these slots and is the one that the steps make. -/
structure Collects (location : Location) (steps : List Step) (d : Draft) : Prop where
  words : ∀ value, .literal value ∈ d.trailing → IsWord value
  labels : d.trailing.filterMap Slot.label? = steps.filterMap Step.label?
  trailing : d.trailing = (accumulated location steps).trailing
  built : Step.build.work d = .ok (.instruction (accumulated location steps)) d

lemma collects_run (location : Location) (steps : List Step) :
    Collects location steps (run location steps) where
  words := by
    intro value mem
    rw [trailing_run] at mem
    obtain ⟨step, _, added⟩ := List.mem_filterMap.1 mem
    exact Step.isWord_of_slot? added
  labels := by
    rw [trailing_run, List.filterMap_filterMap]
    simp only [Step.label?_slot?]
  trailing := trailing_run location steps
  built := by
    rw [← build_run]
    rfl

/-- A draft collects what steps add to it, whichever of them fail. The next step keeps the words and
adds at most one behind them. If it fails, the draft stays as it is, and a step that refers to a
label does not fail. -/
theorem collects_along_run (location : Location) (steps : List Step) (next : Step) :
    Collects location steps (run location steps) ∧
      (run location steps).trailing <+: (run location (steps ++ [next])).trailing ∧
      (run location (steps ++ [next])).trailing.length ≤
        (run location steps).trailing.length + 1 ∧
      (∀ f d, next.work (run location steps) = .error f d →
        run location (steps ++ [next]) = run location steps) ∧
      (∀ label, next.label? = some label →
        ∃ answer d, next.work (run location steps) = .ok answer d) := by
  have grown := (leads_after (run location steps) next).trailing
  rw [← run_append] at grown
  refine ⟨collects_run location steps, ?_, ?_, ?_, ?_⟩
  · rw [grown]
    exact List.prefix_append _ _
  · rw [grown, List.length_append]
    exact Nat.add_le_add_left Option.length_toList_le _
  · intro f d failed
    rw [run_append, after_of_error failed]
  · intro label refers
    rcases next.work_cases (run location steps) with ⟨answer, d, ran, _⟩ | ⟨f, _, wordless, _⟩
    · exact ⟨answer, d, ran⟩
    · rw [← Step.label?_slot?, wordless] at refers
      cases refers

/-- Among steps that succeed, three fail: one value is negative, one is too large, and the last is
too long to be named in a message. -/
theorem collects_along_run_overlong :
    let location : Location := { line := some 3, text := some "SET [loop], end" }
    let steps : List Step := [.operand "[loop]", .extend (-1), .assign .opcode (1 : Int),
      .operand "0x10000", .operand "16", .refer "end", .extend 0xffff]
    let next := Step.extend (10 ^ 4300)
    let trailing : List Slot := [.reference "loop", .reference "end", .literal 0xffff]
    (run location steps).trailing = trailing ∧
      next.work (run location steps) = .error .longValue (run location steps) ∧
      run location (steps ++ [next]) = run location steps ∧
      Step.build.work (run location steps) =
        .ok (.instruction { location, fields := { opcode := 1 }, trailing })
          (run location steps) := by
  intro location steps next trailing
  obtain ⟨collects, _, _, kept, _⟩ := collects_along_run location steps next
  have other : ¬IsWord (10 ^ 4300) := by decide +kernel
  have long : Failure.valueRange (10 ^ 4300) (run location steps).location = .longValue :=
    if_neg (by decide +kernel)
  have failed : next.work (run location steps) = .error .longValue (run location steps) := by
    rw [← long]
    exact Drafting.map_of_error (Drafting.extend_of_not_isWord other _) _
  exact ⟨rfl, failed, kept _ _ failed, collects.built⟩

end Draft

end Dcpu
