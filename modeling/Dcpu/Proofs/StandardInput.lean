import Dcpu.Proofs.Arguments
import Dcpu.Proofs.Delivery

/-!
# A source from the standard input

Octets of ASCII are decoded one by one, whether they are read from a file (`decodeAscii_eq`) or from
the standard input (`decodeInput_eq`), where a carriage return would make a difference. So a run on
a file and a run on the standard input assemble the same source, and unless they tell of it on the
way, or choose an output file by the name of the input, they give the same report
(`Command.run_file_eq_run_input`). A path `--` that is attached to its switch is one that they do
not have, and then they choose by the name (`Command.run_attached_separator`).
-/

namespace Dcpu
open Results

/-! ### Decoding -/

/-- Tells whether an octet is an ASCII character other than the carriage return. -/
def IsPlainOctet (octet : UInt8) : Prop :=
  octet.toNat < 0x80 ∧ octet.toNat ≠ '\r'.toNat

instance (octet : UInt8) : Decidable (IsPlainOctet octet) :=
  inferInstanceAs (Decidable (_ ∧ _))

/-- The text that octets of ASCII stand for. -/
def asciiText (octets : List UInt8) : String :=
  String.ofList (octets.map fun octet => Char.ofNat octet.toNat)

/-- No octet of ASCII is found to be another. -/
lemma findNonAscii_eq_none {octets : List UInt8} (ascii : ∀ octet ∈ octets, octet.toNat < 0x80)
    (line : Nat) : findNonAscii line octets = none := by
  induction octets generalizing line with
  | nil => rfl
  | cons octet octets ih =>
    have first := ascii octet List.mem_cons_self
    rw [findNonAscii, if_neg (by omega)]
    exact ih (fun o mem => ascii o (List.mem_cons_of_mem _ mem)) _

/-- A file of ASCII is read octet by octet. -/
lemma decodeAscii_eq {octets : List UInt8} (ascii : ∀ octet ∈ octets, octet.toNat < 0x80) :
    decodeAscii octets = .ok (asciiText octets) := by
  rw [decodeAscii, findNonAscii_eq_none ascii]
  rfl

namespace Text.Utf8

/-- UTF-8 is read octet by octet if all octets are ASCII. -/
lemma decodeFrom_eq {octets : List UInt8} (plain : ∀ octet ∈ octets, IsPlainOctet octet)
    (position : Nat) (done : List Char) :
    decodeFrom position none done octets =
      .ok (done.reverse ++ octets.map fun octet => Char.ofNat octet.toNat) := by
  induction octets generalizing position done with
  | nil => simp [decodeFrom]
  | cons octet octets ih =>
    obtain ⟨ascii, _⟩ := plain octet List.mem_cons_self
    have first : start? position octet = some (.inl (Char.ofNat octet.toNat)) := if_pos ascii
    rw [decodeFrom, first]
    simp only [ih fun o mem => plain o (List.mem_cons_of_mem _ mem)]
    simp

/-- Newlines stay as they are if there is no carriage return. -/
lemma unifyFrom_eq {cs : List Char} (plain : '\r' ∉ cs) (done : List Char) :
    unifyFrom false done cs = done.reverse ++ cs := by
  induction cs generalizing done with
  | nil => simp [unifyFrom]
  | cons c cs ih =>
    rw [List.mem_cons, not_or] at plain
    rw [unifyFrom, if_neg (Ne.symm plain.1), if_neg (by simp), ih plain.2]
    simp

end Text.Utf8

/-- The character of an octet has its number. -/
lemma toNat_ofNat_octet (octet : UInt8) : (Char.ofNat octet.toNat).toNat = octet.toNat := by
  have small := octet.toNat_lt
  have valid : octet.toNat.isValidChar := .inl (by omega)
  rw [Char.ofNat, dif_pos valid]
  rfl

/-- ASCII without carriage returns is read octet by octet from the standard input. -/
lemma decodeInput_eq {octets : List UInt8} (plain : ∀ octet ∈ octets, IsPlainOctet octet) :
    decodeInput octets = .ok (asciiText octets) := by
  have noReturn : '\r' ∉ octets.map fun octet => Char.ofNat octet.toNat := by
    intro mem
    obtain ⟨octet, member, e⟩ := List.mem_map.1 mem
    obtain ⟨_, other⟩ := plain octet member
    exact other (by rw [← e, toNat_ofNat_octet])
  rw [decodeInput, Text.Utf8.decode, Text.Utf8.decodeFrom_eq plain]
  show Except.ok (String.ofList (Text.Utf8.unifyNewlines _)) = _
  rw [Text.Utf8.unifyNewlines, List.reverse_nil, List.nil_append, Text.Utf8.unifyFrom_eq noReturn]
  rfl

/-! ### What is told on the way -/

namespace Assembler

variable {a : Assembler}

/-- An assembler that is not verbose reports nothing. -/
lemma report_of_quiet (quiet : a.verbose = false) (events : List Event) : a.report events = [] := by
  rw [report, quiet]
  rfl

/-- Nothing is told by a first pass that is not verbose. -/
lemma events_scan (quiet : a.verbose = false) (source : String) : (a.scan source).events = [] := by
  unfold scan
  rcases Scan.ofSource source with ⟨s, _ | f⟩ <;> exact report_of_quiet quiet _

/-- Nothing is told by a second pass that is not verbose. -/
lemma events_resolve (quiet : a.verbose = false) : a.resolve.events = [] := by
  unfold resolve
  split <;> exact report_of_quiet quiet _

/-- A first pass does not change how much is told. -/
lemma verbose_scan (a : Assembler) (source : String) :
    (a.scan source).state.verbose = a.verbose := by
  rw [state_scan]

/-- A second pass does not change how much is told. -/
lemma verbose_resolve (a : Assembler) : a.resolve.state.verbose = a.verbose := by
  unfold resolve
  split <;> rfl

end Assembler

/-- Nothing is told by two calls in a row if neither tells anything. -/
lemma Outcome.andThen_events {σ ε α β : Type} {o : Outcome σ ε α} {next : σ → α → Outcome σ ε β}
    (first : o.events = []) (second : ∀ a, (next o.state a).events = []) :
    (o.andThen next).events = [] := by
  unfold andThen
  cases o.result with
  | error e => exact first
  | ok a => exact List.append_eq_nil_iff.2 ⟨first, second a⟩

/-- Nothing is told by an assembler that is not verbose. -/
lemma Assembler.events_assemble {a : Assembler} (quiet : a.verbose = false) (source : String) :
    (a.assemble source).events = [] := by
  apply Outcome.andThen_events (events_scan quiet source)
  intro _
  have still := (a.verbose_scan source).trans quiet
  exact Outcome.andThen_events (events_resolve still) fun _ => rfl

/-- Assembling does not change how much is told. -/
lemma Assembler.verbose_assemble (a : Assembler) (source : String) :
    (a.assemble source).state.verbose = a.verbose := by
  apply Outcome.andThen_state (P := fun b : Assembler => b.verbose = a.verbose)
  · exact a.verbose_scan source
  · intro _ _
    have resolved := (verbose_resolve (a.scan source).state).trans (a.verbose_scan source)
    generalize (a.scan source).state.resolve = outcome at resolved ⊢
    apply Outcome.andThen_state (P := fun b : Assembler => b.verbose = a.verbose)
    · exact resolved
    · exact fun _ _ => resolved

namespace Session

/-- Nothing is told when a file is written. -/
lemma events_write (s : Session) (name : String) : (s.write name).events = [] := by
  unfold write
  split
  · rfl
  · split
    · rfl
    · split <;> rfl

/-- Nothing is told when a session that is not verbose assembles a source. -/
lemma events_assemble {s : Session} (quiet : s.assembler.verbose = false) (source : String) :
    (s.assemble source).events = [] :=
  Assembler.events_assemble quiet source

/-- Nothing is told when a session that is not verbose assembles a file. -/
lemma events_assembleFile {s : Session} (quiet : s.assembler.verbose = false) (name : String)
    (output : Option String) : (s.assembleFile name output).events = [] := by
  apply Outcome.andThen_events
  · exact Assembler.report_of_quiet quiet _
  · intro source
    apply Outcome.andThen_events
    · exact events_assemble quiet source
    · intro p
      split
      · rfl
      · next output _ =>
        apply Outcome.andThen_events
        · apply Outcome.andThen_events (events_write _ output)
          intro _
          apply Assembler.report_of_quiet
          show ((s.assemble source).state.write output).state.assembler.verbose = false
          rw [assembler_write]
          exact (s.assembler.verbose_assemble source).trans quiet
        · exact fun _ => rfl

end Session

namespace Command

/-- Nothing is told when a session that is not verbose assembles the standard input. -/
lemma events_assembleInput {s : Session} (quiet : s.assembler.verbose = false)
    (input : List UInt8) (target : Option String) : (assembleInput s input target).events = [] := by
  unfold assembleInput
  split
  · rfl
  · next source _ =>
    apply Outcome.andThen_events (Session.events_assemble quiet source)
    intro p
    split
    · rfl
    · exact Outcome.andThen_events (Session.events_write _ _) fun _ => rfl

/-- Nothing is told unless it is wanted. -/
lemma Options.told_of_quiet {o : Options} (quiet : o.verbose = false) (files : Files.Tree)
    (input : List UInt8) : o.told files input = "" := by
  have none : (o.attempt files input).events = [] := by
    unfold attempt
    split
    · exact events_assembleInput quiet input _
    · exact Session.events_assembleFile quiet o.input _
  rw [told, none]
  rfl

/-! ### Runs -/

/-- The report of a run that is not verbose depends on the source, the target and the files
alone. -/
lemma Options.report_of_quiet {o : Options} {files : Files.Tree} {input : List UInt8}
    {source : Except SessionError String} (named : o.output ≠ some "") (quiet : o.verbose = false)
    (read : o.source files input = source) :
    o.report files input = o.reportOf "" (deliver files o.target source) := by
  rw [report_eq named, told_of_quiet quiet, read]

/-- The source in a file of ASCII is its text. -/
lemma Options.source_of_file {o : Options} {files : Files.Tree} {content : List UInt8}
    (ascii : ∀ octet ∈ content, octet.toNat < 0x80) (held : files.read o.input = .ok content)
    (other : o.input ≠ standardInput) (input : List UInt8) :
    o.source files input = .ok (asciiText content) := by
  rw [source, if_neg other, held]
  show (decodeAscii content).mapError SessionError.failure = _
  rw [decodeAscii_eq ascii]
  rfl

/-- The source on the standard input is its text. -/
lemma Options.source_of_input {o : Options} {content : List UInt8}
    (plain : ∀ octet ∈ content, IsPlainOctet octet) (isInput : o.input = standardInput)
    (files : Files.Tree) : o.source files content = .ok (asciiText content) := by
  rw [source, if_pos isInput, decodeInput_eq plain]
  rfl

/-- If it is settled where the program goes, the name of the input does not matter. -/
lemma Options.target_of_isAimed {o : Options} (aimed : o.IsAimed) (name other : String) :
    target { o with input := name } = target { o with input := other } := by
  unfold target
  rcases aimed with none | named
  · rw [if_pos none, if_pos none]
  · obtain ⟨output, e⟩ := Option.ne_none_iff_exists'.1 named
    simp only [e, Option.getD_some]

/-- A run on a file of ASCII without carriage returns and a run with the content of the file on the
standard input end alike, if they are asked for the same, nothing is told on the way and it is
settled where the program goes. -/
lemma run_eq_of_requests {files : Files.Tree} {name : String} {content input : List UInt8}
    {o : Options} {onFile onInput : List String}
    (plain : ∀ octet ∈ content, IsPlainOctet octet) (held : files.read name = .ok content)
    (other : name ≠ standardInput) (quiet : o.verbose = false) (aimed : o.IsAimed)
    (fileRequest : Request.ofArguments onFile = .ok (.run { o with input := name }))
    (inputRequest : Request.ofArguments onInput = .ok (.run { o with input := standardInput })) :
    ∃ report, run files input onFile = .ok report ∧ run files content onInput = .ok report := by
  have fileThere : Options.inputIsThere { o with input := name } files = .ok true := by
    rw [Options.inputIsThere, if_neg other]
    exact Files.Tree.contains_of_read held
  have inputThere : Options.inputIsThere { o with input := standardInput } files = .ok true :=
    if_pos rfl
  have fileSource := Options.source_of_file (o := { o with input := name })
    (fun octet mem => (plain octet mem).1) held other input
  have inputSource :=
    Options.source_of_input (o := { o with input := standardInput }) plain rfl files
  refine ⟨_, run_of_report fileRequest fileThere, ?_⟩
  rw [run_of_report inputRequest inputThere,
    Options.report_of_quiet (output_ne_empty inputRequest) quiet inputSource,
    Options.report_of_quiet (output_ne_empty fileRequest) quiet fileSource,
    Options.target_of_isAimed aimed name standardInput]
  rfl

/-- A command line that is refused gives the same report for all inputs. -/
lemma run_of_refused {arguments : List String} {e : UsageError}
    (refused : Request.ofArguments arguments = .error e) (files : Files.Tree) (input : List UInt8) :
    run files input arguments =
      .ok { exit := 2, errors := s!"{usageText}{programName}: error: {e.message}\n", files } := by
  rw [run, refused]

/-- A run on a file of ASCII without carriage returns and a run with the content of the file on the
standard input, which may be named by a dash, end alike if the same choices are made for both and
one of them is about the output. -/
theorem run_file_eq_run_input {files : Files.Tree} {name : String} {content : List UInt8}
    {before after : List String} {bs cs : List Choice}
    (plain : ∀ octet ∈ content, IsPlainOctet octet) (held : files.read name = .ok content)
    (file : name.toList.head? ≠ some '-') (first : Settings before bs) (later : Settings after cs)
    (aimed : ∃ c ∈ bs ++ cs, c ≠ .quiet) (input : List UInt8) :
    ∃ report, run files input (before ++ name :: after) = .ok report ∧
      run files content (before ++ after) = .ok report ∧
      run files content (before ++ standardInput :: after) = .ok report := by
  have dash : Argument.classify standardInput = .ok (.value standardInput) :=
    toOption_eq_some.1 (by decide)
  have onFile := Request.ofArguments_insert first later (Argument.classify_of_head file)
  have onDash := Request.ofArguments_insert first later dash
  rcases Request.ofArguments_settings (first.append later) with ⟨e, refused⟩ | request
  · rw [refused] at onFile onDash
    exact ⟨_, run_of_refused onFile files input, run_of_refused refused files content,
      run_of_refused onDash files content⟩
  · have onInput := request.trans
      (congrArg (Except.ok ∘ Request.run) (Options.chooseAll_input {} standardInput (bs ++ cs)))
    have other : name ≠ standardInput := by
      rintro rfl
      exact file rfl
    rw [request] at onFile onDash
    have quiet := Options.verbose_chooseAll {} (bs ++ cs)
    have aim := Options.isAimed_chooseAll aimed {}
    obtain ⟨report, ran, same⟩ := run_eq_of_requests plain held other quiet aim onFile onInput
    obtain ⟨report', ran', again⟩ := run_eq_of_requests plain held other quiet aim onFile onDash
    cases ran.symm.trans ran'
    exact ⟨report, ran, same, again⟩

/-- The path `--` does not count if it is attached to its switch. Then the name of the input
matters. -/
theorem run_attached_separator :
    let content : List UInt8 := [0x53, 0x45, 0x54, 0x20, 0x41, 0x2c, 0x20, 0x31, 0x0a]
    let files : Files.Tree := .ofEntries [] [("prog.s", content)]
    run files [] ["--quiet", "-o--", "prog.s"] =
        .ok { files := .ofEntries [] [("prog.s", content), ("prog.s.o", [0x84, 0x01])] } ∧
      run files content ["--quiet", "-o--"] =
        .ok { files := .ofEntries [] [("prog.s", content), ("out.s.o", [0x84, 0x01])] } :=
  ⟨toOption_eq_some.1 (by decide +kernel), toOption_eq_some.1 (by decide +kernel)⟩

/-- A file below a directory, a listing and an output file that is there already. -/
theorem run_file_eq_run_input_named :
    let content : List UInt8 := [0x53, 0x45, 0x54, 0x20, 0x41, 0x2c, 0x20, 0x31, 0x0a]
    let files : Files.Tree := .ofEntries [] [("src/prog.s", content), ("a.bin", [0x00])]
    (∀ octet ∈ content, IsPlainOctet octet) ∧ files.read "./src//prog.s" = .ok content ∧
      Settings ["-o", "a.bin"] [.output "a.bin"] ∧
      ∃ report, run files [] ["-o", "a.bin", "./src//prog.s"] = .ok report ∧
        run files content ["-o", "a.bin"] = .ok report ∧
        run files content ["-o", "a.bin", "-"] = .ok report := by
  intro content files
  have plain : ∀ octet ∈ content, IsPlainOctet octet := by decide +kernel
  have held : files.read "./src//prog.s" = .ok content := toOption_eq_some.1 (by decide +kernel)
  have settings : Settings ["-o", "a.bin"] [.output "a.bin"] :=
    .cons (.next (by decide) (by decide)) .nil
  exact ⟨plain, held, settings,
    run_file_eq_run_input plain held (by decide) settings .nil ⟨_, List.mem_cons_self, nofun⟩ []⟩

end Command

end Dcpu
