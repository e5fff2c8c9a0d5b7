import Dcpu.Proofs.Listing
import Dcpu.Proofs.Relocation
import Dcpu.Proofs.StandardInput

/-!
# Runs that fail

A run that fails for want of its input, a fault of its source or an output file that cannot be
opened leaves all files as they were. It is different if the source refers to a label beyond 65535:
then the output file has been created or emptied before the address is refused. And the program has
been written to the output file before it is printed, which fails if the number of a line is too
long (`Command.Spoils`). These are the only files that a failed run changes
(`Command.files_of_exit_one`), and there are such runs (`Command.run_overlong_creates_output`).
-/

namespace Dcpu
open Results
open Source (lines targets references lineReferences lineSize EndsLine)

/-- A program cannot be serialised exactly if its source refers to a label beyond 65535. -/
lemma bytes_eq_error_iff {source : String} {p : Program} (ok : assemble source = .ok p) :
    (∃ f, p.bytes = .error f) ↔ ∃ address ∈ targets source p.labels, 0xffff < address := by
  obtain ⟨words, _, unfit⟩ := words_of_assemble ok
  obtain ⟨_, within, _⟩ := targets_of_assemble ok
  generalize (p.instructions.map fun i => i.fields.word :: i.values).flatten = ws at words unfit
  have bytes : p.bytes = wordsToBytes ws := by
    rw [Program.bytes, words]
    rfl
  rw [filter_not_isWord fun target mem => (within target mem).1] at unfit
  have same : (∃ f, p.bytes = .error f) ↔ ws.filter (¬IsWord ·) ≠ [] := by
    rw [bytes]
    simp [wordsToBytes_eq_error, List.find?_isSome, ← Option.isSome_iff_exists]
  rw [same, unfit]
  simp

namespace Command

/-- The ways in which a run can fail after it has opened its output file, with the files that it
leaves: the source refers to a label beyond 65535, and the output file is empty, or the program has
been written and is to be printed, and the number of one of its lines cannot be written. -/
inductive Spoils (files : Files.Tree) (input : List UInt8) (arguments : List String) :
    Files.Tree → Prop
  | emptied {o : Options} {source name : String} {p : Program} {after : Files.Tree}
      (request : Request.ofArguments arguments = .ok (.run o))
      (read : o.source files input = .ok source) (assembled : assemble source = .ok p)
      (beyond : ∃ address ∈ targets source p.labels, 0xffff < address)
      (named : o.target = some name) (opened : files.write name [] = .ok after) :
      Spoils files input arguments after
  | unprinted {o : Options} {source name : String} {p : Program} {octets : List UInt8}
      {after : Files.Tree} (request : Request.ofArguments arguments = .ok (.run o))
      (read : o.source files input = .ok source) (assembled : assemble source = .ok p)
      (loud : o.quiet = false) (long : ∃ i ∈ p.instructions, i.location.isWritable = false)
      (named : o.target = some name) (fits : p.bytes = .ok octets)
      (filled : files.write name octets = .ok after) : Spoils files input arguments after

variable {files : Files.Tree} {input : List UInt8} {arguments : List String}

/-- An input that can be read is there. -/
lemma Options.inputIsThere_of_source {o : Options} {source : String}
    (read : o.source files input = .ok source) : o.inputIsThere files = .ok true := by
  unfold inputIsThere
  split
  · rfl
  · next file =>
    rw [Options.source, if_neg file] at read
    obtain ⟨content, held, _⟩ := bind_eq_ok.1 read
    exact Files.Tree.contains_of_read (mapError_eq_ok.1 held)

/-- A run that has delivered a program fails exactly if it is to print the program and the number of
a line cannot be written. -/
lemma Options.exit_of_delivered (o : Options) (told : String) {source : String} {p : Program}
    (assembled : Dcpu.assemble source = .ok p) (after : Files.Tree) :
    (o.reportOf told (.ok p, after)).exit = 1 ↔
      o.quiet = false ∧ ∃ i ∈ p.instructions, i.location.isWritable = false := by
  have listed := Listing.exists_listing_iff (words_of_assemble assembled).1
  cases quiet : o.quiet with
  | true =>
    have printed : o.printed p = .ok "" := if_pos quiet
    simp [reportOf, printed]
  | false =>
    have printed : o.printed p = (p.listing.mapError SessionError.failure).map (· ++ "\n") :=
      if_neg (by rw [quiet]; exact Bool.false_ne_true)
    cases listing : p.listing with
    | ok text =>
      have short := listed.1 ⟨text, listing⟩
      rw [listing] at printed
      have all : ¬∃ i ∈ p.instructions, i.location.isWritable = false := by
        rintro ⟨i, mem, long⟩
        rw [short i mem] at long
        cases long
      simp [reportOf, printed, Except.mapError, Except.map, all]
    | error f =>
      have long : ∃ i ∈ p.instructions, i.location.isWritable = false := by
        by_contra all
        have short : ∀ i ∈ p.instructions, i.location.isWritable = true := by
          simpa using all
        obtain ⟨text, ok⟩ := listed.2 short
        rw [listing] at ok
        cases ok
      rw [listing] at printed
      simp [reportOf, printed, Except.mapError, Except.map, long]

/-- A run that spoils its output file fails and leaves it so. -/
lemma run_of_spoils {after : Files.Tree} (spoils : Spoils files input arguments after) :
    ∃ report, run files input arguments = .ok report ∧ report.exit = 1 ∧
      report.files = after := by
  cases spoils with
  | @emptied o source name p _ request read assembled beyond named opened =>
    obtain ⟨f, unfit⟩ := (bytes_eq_error_iff assembled).2 beyond
    have made : deliver files o.target (o.source files input) = (.error (.failure f), after) := by
      rw [read, named]
      simp only [deliver, save, assembled, opened, unfit]
      rfl
    refine ⟨_, run_of_report request (Options.inputIsThere_of_source read), ?_⟩
    rw [Options.report_eq (output_ne_empty request), made]
    exact ⟨rfl, rfl⟩
  | @unprinted o source name p octets _ request read assembled loud long named fits filled =>
    obtain ⟨emptied, opened⟩ := Files.Tree.exists_write filled []
    have made : deliver files o.target (o.source files input) = (.ok p, after) := by
      rw [read, named]
      simp only [deliver, save, assembled, opened, fits, filled]
      rfl
    refine ⟨_, run_of_report request (Options.inputIsThere_of_source read), ?_, ?_⟩
    · rw [Options.report_eq (output_ne_empty request), made]
      exact (Options.exit_of_delivered o _ assembled after).2 ⟨loud, long⟩
    · rw [Options.report_eq (output_ne_empty request), made, Options.files_reportOf]

/-- A run that fails leaves the files as they were or spoils them. -/
lemma spoils_of_run {report : Report} (ran : run files input arguments = .ok report)
    (failed : report.exit = 1) :
    report.files = files ∨ Spoils files input arguments report.files := by
  -- Only a run with options has this exit status.
  cases asked : Request.ofArguments arguments with
  | error e =>
    rw [run, asked] at ran
    cases ran
    cases failed
  | ok request =>
    cases request with
    | help =>
      rw [run, asked] at ran
      cases ran
      cases failed
    | version =>
      rw [run, asked] at ran
      cases ran
      cases failed
    | run o =>
      rcases report_of_run asked ran with rfl | ⟨_, same⟩
      · have delivery := delivery_deliver files o.target (o.source files input)
        rw [Options.report_eq (output_ne_empty asked)] at failed ⊢
        rw [Options.files_reportOf]
        generalize deliver files o.target (o.source files input) = made at delivery failed ⊢
        obtain ⟨result, after⟩ := made
        cases delivery with
        | refused => exact .inl rfl
        | @spoiled source name p _ f read assembled named opened unfit =>
          have beyond := (bytes_eq_error_iff assembled).1 ⟨f, unfit⟩
          exact .inr (.emptied asked read assembled beyond named opened)
        | kept => exact .inl rfl
        | written read assembled named fits filled =>
          obtain ⟨loud, long⟩ := (Options.exit_of_delivered o _ assembled _).1 failed
          exact .inr (.unprinted asked read assembled loud long named fits filled)
      · exact .inl same

/-- A run that fails leaves the files as they were, unless it has spoiled an output file that was
different before. -/
theorem files_of_exit_one {report : Report} (ran : run files input arguments = .ok report)
    (failed : report.exit = 1) :
    report.files = files ↔
      ∀ after, Spoils files input arguments after → after = files := by
  constructor
  · intro same after spoils
    obtain ⟨other, again, _, rfl⟩ := run_of_spoils spoils
    rw [ran] at again
    cases again
    exact same
  · intro harmless
    rcases spoils_of_run ran failed with same | spoils
    · exact same
    · exact harmless _ spoils

/-- A source that refers to an unknown label, and an output file that is there already. -/
theorem files_of_exit_one_unknown :
    let files : Files.Tree := .ofEntries [] [("out.s.o", [0x2a])]
    let input : List UInt8 := "JSR away".toList.map fun c => .ofNat c.toNat
    let report : Report := {
      exit := 1
      errors := "Error: Line 1: Cannot find label away in (none)\n  JSR away\n"
      files }
    run files input [] = .ok report ∧ report.exit = 1 ∧
      (report.files = files ↔ ∀ after, Spoils files input [] after → after = files) := by
  intro files input report
  have ran : run files input [] = .ok report := toOption_eq_some.1 (by decide +kernel)
  exact ⟨ran, rfl, files_of_exit_one ran rfl⟩

end Command

/-! ### A source that is too large -/

/-- A source of lines that make two words each. -/
def filler : Nat → String
  | 0 => ""
  | n + 1 => filler n ++ "SET A, 32\n"

lemma endsLine_filler (n : Nat) : EndsLine (filler n) := by
  cases n with
  | zero => exact .inl rfl
  | succ n => exact .inr ⟨filler n ++ "SET A, 32", by rw [filler, String.append_assoc]; rfl⟩

/-- The lines of a filler are all alike. -/
lemma lines_filler (n : Nat) : lines (filler n) = List.replicate n "SET A, 32" := by
  induction n with
  | zero => decide +kernel
  | succ n ih =>
    have line : lines "SET A, 32\n" = ["SET A, 32"] := by decide +kernel
    rw [filler, Source.lines_append (endsLine_filler n), ih, line, List.replicate_succ']

lemma labels_filler (n : Nat) : Source.labels (filler n) = [] := by
  have none : Source.label? (Source.tokens "SET A, 32") = none := by decide +kernel
  rw [Source.labels, Source.labelsOf, lines_filler, List.filterMap_eq_nil_iff]
  intro text mem
  rw [List.eq_of_mem_replicate mem, none]

/-- A filler has a program without labels. -/
lemma assemble_filler (n : Nat) : ∃ p, assemble (filler n) = .ok p ∧ p.labels = [] := by
  induction n with
  | zero => exact ⟨{}, rfl, rfl⟩
  | succ n ih =>
    obtain ⟨p, left, labels⟩ := ih
    have right : assemble "SET A, 32\n" = .ok
        { instructions := [⟨.ofLine 1 "SET A, 32", ⟨0x1, 0x00, 0x1f⟩, [.literal 0x20]⟩] } :=
      toOption_eq_some.1 (by decide +kernel)
    have disjoint : (Source.labels (filler n)).Disjoint (Source.labels "SET A, 32\n") := by
      rw [labels_filler]
      exact List.disjoint_nil_left _
    refine ⟨_, assemble_append_eq_link (endsLine_filler n) left right disjoint, ?_⟩
    rw [Program.link, labels]
    rfl

/-- The size of a program is told by the lines of the source. -/
lemma size_of_assemble {source : String} {p : Program} (ok : assemble source = .ok p) :
    p.size = ((lines source).map lineSize).sum := by
  obtain ⟨es, read, _, resolved, _⟩ := assemble_eq_ok.1 ok
  rw [Entry.size_of_resolveAll resolved, Entry.sum_size_of_readFrom read]

/-- A source with a label behind a filler, which refers to the label. -/
def overlong (n : Nat) : String :=
  filler n ++ ":end SET PC, end\n"

/-- The label behind a filler has an address, and the source refers to it. -/
lemma assemble_overlong (n : Nat) :
    ∃ p, assemble (overlong n) = .ok p ∧ (2 * n : Int) ∈ targets (overlong n) p.labels := by
  obtain ⟨p, left, none⟩ := assemble_filler n
  have right : assemble ":end SET PC, end\n" = .ok
      { instructions := [⟨.ofLine 1 ":end SET PC, end", ⟨0x1, 0x1c, 0x1f⟩, [.literal 0]⟩]
        labels := [("end", 0)] } :=
    toOption_eq_some.1 (by decide +kernel)
  have disjoint : (Source.labels (filler n)).Disjoint (Source.labels ":end SET PC, end\n") := by
    rw [labels_filler]
    exact List.disjoint_nil_left _
  have size : p.size = 2 * n := by
    have two : lineSize "SET A, 32" = 2 := by decide +kernel
    rw [size_of_assemble left, lines_filler, List.map_replicate, two, List.sum_replicate]
    exact Nat.mul_comm n 2
  have last : lines ":end SET PC, end\n" = [":end SET PC, end"] := by decide +kernel
  have refers : "end" ∈ lineReferences ":end SET PC, end" := by decide +kernel
  refine ⟨_, assemble_append_eq_link (endsLine_filler n) left right disjoint, ?_⟩
  apply List.mem_filterMap.2
  refine ⟨(.ofLine (1 + n) ":end SET PC, end", "end"), ?_, ?_⟩
  · apply Source.mem_referencesFrom.2
    refine ⟨n, ":end SET PC, end", ?_, rfl, refers⟩
    rw [overlong, Source.lines_append (endsLine_filler n), lines_filler, last]
    simp
  · rw [Program.link, none, size]
    simp [Labels.moved, Labels.get?]

/-- The octets of a text in ASCII. -/
def asciiOctets (text : String) : List UInt8 :=
  text.toList.map fun c => UInt8.ofNat c.toNat

/-- A text of ASCII is read back from its octets. -/
lemma decodeInput_asciiOctets {text : String}
    (plain : ∀ c ∈ text.toList, c.toNat < 0x80 ∧ c ≠ '\r') :
    decodeInput (asciiOctets text) = .ok text := by
  have value : ∀ c ∈ text.toList, (UInt8.ofNat c.toNat).toNat = c.toNat := by
    intro c mem
    obtain ⟨ascii, _⟩ := plain c mem
    rw [UInt8.toNat_ofNat']
    omega
  have octets : ∀ octet ∈ asciiOctets text, IsPlainOctet octet := by
    intro octet mem
    obtain ⟨c, member, rfl⟩ := List.mem_map.1 mem
    obtain ⟨ascii, other⟩ := plain c member
    rw [IsPlainOctet, value c member]
    exact ⟨ascii, fun e => other (Char.toNat_inj.1 e)⟩
  have back : ((asciiOctets text).map fun octet => Char.ofNat octet.toNat) = text.toList := by
    rw [asciiOctets, List.map_map]
    apply (List.map_congr_left ?_).trans (List.map_id _)
    intro c mem
    show Char.ofNat (UInt8.ofNat c.toNat).toNat = c
    rw [value c mem, Char.ofNat_toNat]
  rw [decodeInput_eq octets, asciiText, back, String.ofList_toList]

lemma plain_overlong (n : Nat) : ∀ c ∈ (overlong n).toList, c.toNat < 0x80 ∧ c ≠ '\r' := by
  have line : ∀ c ∈ "SET A, 32\n".toList, c.toNat < 0x80 ∧ c ≠ '\r' := by simp
  have last : ∀ c ∈ ":end SET PC, end\n".toList, c.toNat < 0x80 ∧ c ≠ '\r' := by simp
  have lines : ∀ c ∈ (filler n).toList, c.toNat < 0x80 ∧ c ≠ '\r' := by
    induction n with
    | zero => exact fun c mem => by cases mem
    | succ n ih =>
      rw [filler, String.toList_append, List.forall_mem_append]
      exact ⟨ih, line⟩
  rw [overlong, String.toList_append, List.forall_mem_append]
  exact ⟨lines, last⟩

namespace Command

/-- An output file is created for a source that is too large. -/
lemma spoils_overlong {n : Nat} (large : 0xffff < (2 * n : Int)) :
    Spoils {} (asciiOctets (overlong n)) [] ⟨[(["out.s.o"], .file [])]⟩ := by
  obtain ⟨p, assembled, beyond⟩ := assemble_overlong n
  have read : Options.source {} {} (asciiOctets (overlong n)) = .ok (overlong n) := by
    show (decodeInput (asciiOctets (overlong n))).mapError SessionError.input = _
    rw [decodeInput_asciiOctets (plain_overlong n)]
    rfl
  have opened : Files.Tree.write {} "out.s.o" [] = .ok ⟨[(["out.s.o"], .file [])]⟩ :=
    toOption_eq_some.1 (by decide +kernel)
  exact .emptied rfl read assembled ⟨_, beyond, large⟩ (by decide +kernel) opened

/-- A run on a source of 65538 words fails and leaves an empty file where there was none. -/
theorem run_overlong_creates_output :
    ∃ report, run {} (asciiOctets (overlong 0x8000)) [] = .ok report ∧ report.exit = 1 ∧
      report.files ≠ {} := by
  obtain ⟨report, ran, failed, files⟩ := run_of_spoils (spoils_overlong (n := 0x8000) (by decide))
  refine ⟨report, ran, failed, ?_⟩
  rw [files]
  exact nofun

end Command

end Dcpu
