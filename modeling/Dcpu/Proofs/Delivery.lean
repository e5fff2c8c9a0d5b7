import Dcpu.Command.Run
import Dcpu.Proofs.Consistency
import Dcpu.Proofs.Files

/-!
# What a run of the command does

A run reads a source, assembles it and writes the program, whether the source comes from a file or
from the standard input (`deliver`). The two ways differ in how the source is read
(`Command.Options.source`) and in what they tell on the way, and in nothing else
(`Command.Options.report_eq`).

An output file is created or emptied before it is known whether the program has octets. `Delivery`
lists what can happen: this is the only case in which a run fails and has changed the files.
-/

namespace Dcpu
open Results

/-! ### Assembling and writing -/

/-- What becomes of octets that are to be written to a file, and of the files. The file is opened
before it is known whether there are octets. -/
def save (files : Files.Tree) (name : String) (octets : Except Failure (List UInt8)) :
    Except SessionError Unit × Files.Tree :=
  match files.write name [] with
  | .error e => (.error (.file e), files)
  | .ok emptied =>
    match octets with
    | .error f => (.error (.failure f), emptied)
    | .ok octets =>
      match files.write name octets with
      | .error e => (.error (.file e), emptied)
      | .ok written => (.ok (), written)

/-- What becomes of a source that is assembled and written to a file, if one is named, and of the
files. -/
def deliver (files : Files.Tree) (target : Option String) (source : Except SessionError String) :
    Except SessionError Program × Files.Tree :=
  match source with
  | .error e => (.error e, files)
  | .ok text =>
    match assemble text with
    | .error f => (.error (.failure f), files)
    | .ok p =>
      match target with
      | none => (.ok p, files)
      | some name => ((save files name p.bytes).1.map fun _ => p, (save files name p.bytes).2)

/-- The ways in which a delivery can end. -/
inductive Delivery (files : Files.Tree) (target : Option String)
    (source : Except SessionError String) : Except SessionError Program → Files.Tree → Prop
  | refused (e : SessionError) : Delivery files target source (.error e) files
  | spoiled {text name : String} {p : Program} {emptied : Files.Tree} {f : Failure}
      (read : source = .ok text) (assembled : assemble text = .ok p) (named : target = some name)
      (opened : files.write name [] = .ok emptied) (unfit : p.bytes = .error f) :
      Delivery files target source (.error (.failure f)) emptied
  | kept {text : String} {p : Program} (read : source = .ok text)
      (assembled : assemble text = .ok p) (unnamed : target = none) :
      Delivery files target source (.ok p) files
  | written {text name : String} {p : Program} {octets : List UInt8} {after : Files.Tree}
      (read : source = .ok text) (assembled : assemble text = .ok p) (named : target = some name)
      (fits : p.bytes = .ok octets) (filled : files.write name octets = .ok after) :
      Delivery files target source (.ok p) after

lemma delivery_deliver (files : Files.Tree) (target : Option String)
    (source : Except SessionError String) :
    Delivery files target source (deliver files target source).1
      (deliver files target source).2 := by
  unfold deliver
  split
  · exact .refused _
  · next text =>
    split
    · exact .refused _
    · next p assembled =>
      split
      · exact .kept rfl assembled rfl
      · next name =>
        unfold save
        split
        · exact .refused _
        · next emptied opened =>
          split
          · next f unfit => exact .spoiled rfl assembled rfl opened unfit
          · next octets fits =>
            obtain ⟨written, filled⟩ := Files.Tree.exists_write opened octets
            rw [filled]
            exact .written rfl assembled rfl fits filled

/-! ### Sessions -/

/-- An assembler holds the program that it gives. -/
lemma Assembler.program_assemble {a : Assembler} {source : String} {p : Program}
    (ok : Dcpu.assemble source = .ok p) : (a.assemble source).state.program = some p := by
  rw [state_of_ok ok]

namespace Outcome

/-- Tells whether a call has made a delivery. -/
structure Delivers (o : Outcome Session SessionError Program)
    (made : Except SessionError Program × Files.Tree) : Prop where
  result : o.result = made.1
  files : o.state.files = made.2
  program : ∀ p, o.result = .ok p → o.state.assembler.program = some p

/-- What a call tells does not matter. -/
lemma Delivers.withEvents {o : Outcome Session SessionError Program}
    {made : Except SessionError Program × Files.Tree} (done : o.Delivers made)
    (events : List Event) : Delivers ⟨o.state, events, o.result⟩ made :=
  ⟨done.result, done.files, done.program⟩

end Outcome

namespace Session

lemma result_assemble (s : Session) (source : String) :
    (s.assemble source).result = (Dcpu.assemble source).mapError .failure := by
  rw [← s.assembler.result_assemble]
  rfl

/-- A session that holds a program saves its octets. -/
lemma write_eq_save {s : Session} {p : Program} (held : s.assembler.program = some p)
    (name : String) : ((s.write name).result, (s.write name).state.files) =
      save s.files name p.bytes := by
  have bytes : s.assembler.bytes = p.bytes.mapError .failure := by
    rw [Assembler.bytes, Assembler.currentProgram, held]
    rfl
  unfold write save
  cases opened : s.files.write name [] with
  | error e => rfl
  | ok emptied =>
    rw [bytes]
    cases p.bytes with
    | error f => rfl
    | ok octets =>
      simp only [Except.mapError, Files.Tree.write_write opened]
      cases s.files.write name octets <;> rfl

/-- Assembling a source and then writing the program is a delivery. -/
lemma delivers_andThen {s : Session} {target : Option String} {text : String}
    {next : Session → Program → Outcome Session SessionError Program}
    (unnamed : target = none → ∀ s p, (next s p).state = s ∧ (next s p).result = .ok p)
    (named : ∀ name, target = some name → ∀ s p, (next s p).state = (s.write name).state ∧
      (next s p).result = (s.write name).result.map fun _ => p) :
    ((s.assemble text).andThen next).Delivers (deliver s.files target (.ok text)) := by
  have result := s.result_assemble text
  simp only [deliver]
  cases assembled : Dcpu.assemble text with
  | error f =>
    rw [assembled] at result
    rw [Outcome.andThen_of_error result]
    exact ⟨rfl, rfl, fun _ h => by cases h⟩
  | ok p =>
    rw [assembled] at result
    have held : (s.assemble text).state.assembler.program = some p :=
      Assembler.program_assemble assembled
    rw [Outcome.andThen_of_ok result]
    cases target with
    | none =>
      obtain ⟨state, ok⟩ := unnamed rfl (s.assemble text).state p
      refine ⟨ok, ?_, ?_⟩
      · show (next (s.assemble text).state p).state.files = s.files
        rw [state]
        rfl
      · intro q h
        cases ok.symm.trans h
        exact (congrArg (·.assembler.program) state).trans held
    | some name =>
      obtain ⟨state, ok⟩ := named name rfl (s.assemble text).state p
      have saved := write_eq_save held name
      refine ⟨ok.trans (congrArg (·.1.map fun _ => p) saved), ?_, ?_⟩
      · exact (congrArg Session.files state).trans (congrArg Prod.snd saved)
      · intro q h
        obtain ⟨_, _, rfl⟩ := map_eq_ok.1 (ok.symm.trans h)
        rw [state, assembler_write]
        exact held

lemma delivers_assembleFile (s : Session) (name : String) {target : Option String}
    (nonempty : target ≠ some "") :
    (s.assembleFile name target).Delivers (deliver s.files target (s.load name).result) := by
  unfold assembleFile
  cases read : (s.load name).result with
  | error e =>
    rw [Outcome.andThen_of_error read]
    exact ⟨rfl, rfl, fun _ h => by cases h⟩
  | ok text =>
    rw [Outcome.andThen_of_ok read]
    apply Outcome.Delivers.withEvents
    apply delivers_andThen
    · rintro rfl s p
      exact ⟨rfl, rfl⟩
    · rintro output rfl s p
      have named : (!output.isEmpty) = true := by
        rw [Bool.not_eq_true', Bool.eq_false_iff]
        intro empty
        exact nonempty (congrArg some (String.isEmpty_iff.1 empty))
      have kept : (some output).filter (fun name => !name.isEmpty) = some output :=
        Option.filter_some_pos named
      simp only [kept, writeAloud, Outcome.andThen]
      cases (s.write output).result <;> exact ⟨rfl, rfl⟩

end Session

/-! ### Options -/

namespace Command

namespace Reading

/-- Tells whether the output file, if there is one, has a name. -/
def NamesOutput (r : Reading) : Prop :=
  r.options.output ≠ some ""

variable {r r' : Reading}

lemma NamesOutput.switch {s : Switch} (named : r.NamesOutput) (ok : r.switch s = .ok r') :
    r'.NamesOutput := by
  cases s <;> cases ok <;> exact named

lemma NamesOutput.switches {switches : List Switch} (named : r.NamesOutput)
    (ok : switches.foldlM Reading.switch r = .ok r') : r'.NamesOutput := by
  induction switches generalizing r with
  | nil =>
    cases ok
    exact named
  | cons s switches ih =>
    rw [List.foldlM_cons] at ok
    obtain ⟨next, first, rest⟩ := bind_eq_ok.1 ok
    exact ih (named.switch first) rest

lemma namesOutput_output (r : Reading) (value : String) : (r.output value).NamesOutput := by
  simp only [NamesOutput, output]
  split
  · exact nofun
  · next other =>
    rintro e
    cases e
    exact other (by decide)

lemma NamesOutput.group {switches : List Switch} {value : Option String} (named : r.NamesOutput)
    (ok : r.group switches value = .ok r') : r'.NamesOutput := by
  obtain ⟨next, taken, e⟩ := bind_eq_ok.1 ok
  cases e
  cases value with
  | none => exact named.switches taken
  | some text => exact next.namesOutput_output text

/-- A switch ends the reading only with a request for help or for the version. -/
lemma ne_run_of_switches {switches : List Switch} {request : Request}
    (ended : switches.foldlM switch r = .error request) (o : Options) : request ≠ .run o := by
  induction switches generalizing r with
  | nil => cases ended
  | cons s switches ih =>
    rw [List.foldlM_cons] at ended
    rcases bind_eq_error.1 ended with first | ⟨next, _, rest⟩
    · cases s <;> cases first <;> exact nofun
    · exact ih rest

lemma ne_run_of_group {switches : List Switch} {value : Option String} {request : Request}
    (ended : r.group switches value = .error request) (o : Options) : request ≠ .run o := by
  rcases bind_eq_error.1 ended with taken | ⟨_, _, e⟩
  · exact ne_run_of_switches taken o
  · cases e

lemma NamesOutput.input (named : r.NamesOutput) (value : String) :
    (r.input value).NamesOutput := by
  unfold Reading.input
  split <;> exact named

lemma NamesOutput.run {arguments : List Argument} {o : Options}
    (named : r.NamesOutput) (ok : r.run arguments = .ok (.run o)) : o.output ≠ some "" := by
  -- One case for each way on: only the cases of a group of switches can set the output.
  fun_induction r.run arguments with
  | case1 r =>
    unfold finish at ok
    split at ok
    · cases ok
      exact named
    · cases ok
  | case2 r text rest ih => exact ih named ok
  | case3 r text rest _ ih => exact ih named ok
  | case4 r text rest _ ih => exact ih (named.input text) ok
  | case5 r text rest _ ih => exact ih (named.input text) ok
  | case6 r text rest _ ih => exact ih named ok
  | case7 r text rest _ ih => exact ih (named.input text) ok
  | case8 r rest _ _ ih => exact ih named ok
  | case9 r rest _ _ ih => exact ih named ok
  | case10 => cases ok
  | case11 r s long attached switches _ text rest request ended =>
    exact absurd (Except.ok.inj ok) (ne_run_of_group ended o)
  | case12 r s long attached switches _ text rest next taken ih =>
    exact ih (named.group taken) ok
  | case13 => cases ok
  | case14 r s long attached rest switches text _ request ended =>
    exact absurd (Except.ok.inj ok) (ne_run_of_group ended o)
  | case15 r s long attached rest switches text _ next taken ih =>
    exact ih (named.group taken) ok
  | case16 r s long attached rest switches _ request ended =>
    exact absurd (Except.ok.inj ok) (ne_run_of_group ended o)
  | case17 r s long attached rest switches _ next taken ih =>
    exact ih (named.group taken) ok

end Reading

/-- An output file that the arguments name has a name. -/
lemma output_ne_empty {arguments : List String} {o : Options}
    (request : Request.ofArguments arguments = .ok (.run o)) : o.output ≠ some "" := by
  obtain ⟨arguments, _, ok⟩ := bind_eq_ok.1 request
  exact Reading.NamesOutput.run (r := {}) nofun ok

lemma Options.target_ne_empty {o : Options} (named : o.output ≠ some "") :
    o.target ≠ some "" := by
  unfold target
  split
  · exact nofun
  · cases output : o.output with
    | some name =>
      rw [output] at named
      exact named
    | none =>
      intro e
      have text := congrArg String.toList (Option.some.inj e)
      simp [defaultOutput] at text

/-! ### Runs -/

/-- The source that a run assembles. -/
def Options.source (o : Options) (files : Files.Tree) (input : List UInt8) :
    Except SessionError String :=
  if o.input = standardInput then (decodeInput input).mapError .input
  else do
    let octets ← (files.read o.input).mapError .file
    (decodeAscii octets).mapError .failure

/-- What a run prints of a program. -/
def Options.printed (o : Options) (p : Program) : Except SessionError String :=
  if o.quiet then .ok "" else (p.listing.mapError .failure).map (· ++ "\n")

/-- The report of a run that told something and made a delivery. -/
def Options.reportOf (o : Options) (told : String)
    (made : Except SessionError Program × Files.Tree) : Report :=
  match made.1 with
  | .error e => { exit := 1, errors := told ++ announce e, files := made.2 }
  | .ok p =>
    match o.printed p with
    | .error e => { exit := 1, errors := told ++ announce e, files := made.2 }
    | .ok text => { output := text, errors := told ++ o.summary p, files := made.2 }

lemma delivers_assembleInput (s : Session) (input : List UInt8) (target : Option String) :
    (assembleInput s input target).Delivers
      (deliver s.files target ((decodeInput input).mapError .input)) := by
  unfold assembleInput
  cases decodeInput input with
  | error e => exact ⟨rfl, rfl, fun _ h => by cases h⟩
  | ok text =>
    apply Session.delivers_andThen
    · rintro rfl s p
      exact ⟨rfl, rfl⟩
    · rintro name rfl s p
      simp only [Outcome.andThen]
      cases (s.write name).result <;> exact ⟨rfl, rfl⟩

/-- The first part of a run, before the program is printed. -/
def Options.attempt (o : Options) (files : Files.Tree) (input : List UInt8) :
    Outcome Session SessionError Program :=
  let s : Session := { assembler := { verbose := o.verbose }, files }
  if o.input = standardInput then assembleInput s input o.target
  else s.assembleFile o.input o.target

namespace Options

variable {o : Options} {files : Files.Tree} {input : List UInt8}

lemma delivers_attempt (named : o.output ≠ some "") (files : Files.Tree) (input : List UInt8) :
    (o.attempt files input).Delivers (deliver files o.target (o.source files input)) := by
  unfold attempt source
  split
  · exact delivers_assembleInput _ input o.target
  · exact Session.delivers_assembleFile _ o.input (target_ne_empty named)

lemma listing_eq_printed {a : Assembler} {p : Program} (held : a.program = some p) :
    o.listing a = o.printed p := by
  unfold Options.listing printed
  split
  · rfl
  · rw [Assembler.listing, Assembler.currentProgram, held]
    rfl

/-- What a run tells on the way. -/
def told (o : Options) (files : Files.Tree) (input : List UInt8) : String :=
  String.join ((o.attempt files input).events.map (·.text ++ "\n"))

/-- A run reports on the delivery of its source. -/
lemma report_eq (named : o.output ≠ some "") : o.report files input =
    o.reportOf (o.told files input) (deliver files o.target (o.source files input)) := by
  obtain ⟨result, after, program⟩ := delivers_attempt named files input
  have whole : o.assemble files input = (o.attempt files input).andThen fun s p =>
      { state := s, result := (o.listing s.assembler).map (·, o.summary p) } :=
    rfl
  unfold report reportOf
  rw [← after, ← result]
  cases made : (o.attempt files input).result with
  | error e =>
    simp only [whole, Outcome.andThen_of_error made]
    rfl
  | ok p =>
    simp only [whole, Outcome.andThen_of_ok made, listing_eq_printed (program p made)]
    cases o.printed p with
    | error e =>
      simp only [Except.map, List.append_nil]
      rfl
    | ok text =>
      simp only [Except.map, List.append_nil]
      rfl

/-- A run without an error has printed a program. -/
lemma exit_reportOf {told : String} {made : Except SessionError Program × Files.Tree}
    (success : (o.reportOf told made).exit = 0) :
    ∃ p, made.1 = .ok p ∧ o.printed p = .ok (o.reportOf told made).output := by
  revert success
  unfold reportOf
  split
  · exact nofun
  · next p ok =>
    split
    · exact nofun
    · next text printed => exact fun _ => ⟨p, ok, printed⟩

lemma files_reportOf (o : Options) (told : String)
    (made : Except SessionError Program × Files.Tree) : (o.reportOf told made).files = made.2 := by
  unfold reportOf
  split
  · rfl
  · split <;> rfl

end Options

lemma run_of_report {arguments : List String} {o : Options} {files : Files.Tree}
    {input : List UInt8} (request : Request.ofArguments arguments = .ok (.run o))
    (there : o.inputIsThere files = .ok true) :
    run files input arguments = .ok (o.report files input) := by
  rw [run, request]
  show o.run files input = _
  rw [Options.run, there]
  rfl

/-- A run with options makes its report, or it does not find its input. -/
lemma report_of_run {arguments : List String} {o : Options} {files : Files.Tree}
    {input : List UInt8} {report : Report}
    (request : Request.ofArguments arguments = .ok (.run o))
    (ran : run files input arguments = .ok report) :
    report = o.report files input ∨ report.exit = 1 ∧ report.files = files := by
  rw [run, request] at ran
  obtain ⟨there, _, e⟩ := bind_eq_ok.1 ran
  cases there with
  | true =>
    cases e
    exact .inl rfl
  | false =>
    cases e
    exact .inr ⟨rfl, rfl⟩

end Command

end Dcpu
