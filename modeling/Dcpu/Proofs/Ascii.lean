import Dcpu.Proofs.Aftermath
import Dcpu.Proofs.Serialising
import Dcpu.Proofs.StandardInput

/-!
# Sources beyond ASCII

A file is a source only if all its octets are ASCII. The first octet that is not is reported with
the number of its line, which is found by counting line feeds. This is the line on which the octet
stands if the octets, with one character for each of them, are cut into lines
(`Source.onLine_count`): what is before an octet consists of whole lines and the beginning of its
own (`Source.exists_whole_lines`).

Such a file leaves all as it is. Any other file is assembled like its text. The file must not have
so many lines that their numbers cannot be written, or the octet could not be reported.
-/

namespace Dcpu
open Results

/-! ### The line of a character -/

namespace Source

/-- Tells whether the character at an offset stands on the line with an index: it is the
character at some column of this line, and before the line stand the lines before it, each with
its line feed. -/
def OnLine (source : String) (offset n : Nat) : Prop :=
  ∃ line column, (lines source)[n]? = some line ∧ column < line.length ∧
    source.toList[offset]? = line.toList[column]? ∧
    offset = (unlines ((lines source).take n)).length + column

/-- A text consists of whole lines, one for every line feed, and the beginning of a line. -/
lemma exists_whole_lines (cs : List Char) :
    ∃ texts left, cs = (unlines texts).toList ++ left ∧ (∀ text ∈ texts, '\n' ∉ text.toList) ∧
      '\n' ∉ left ∧ texts.length = cs.count '\n' := by
  induction cs using List.reverseRecOn with
  | nil => exact ⟨[], [], rfl, (fun _ mem => by cases mem), List.not_mem_nil, rfl⟩
  | append_singleton cs c ih =>
    obtain ⟨texts, left, text, whole, start, count⟩ := ih
    by_cases newline : c = '\n'
    · refine ⟨texts ++ [String.ofList left], [], ?_, ?_, List.not_mem_nil, ?_⟩
      · simp [text, unlines, newline]
      · intro line mem
        rcases List.mem_append.1 mem with mem | mem
        · exact whole line mem
        · rw [List.mem_singleton.1 mem, String.toList_ofList]
          exact start
      · rw [List.length_append, count, List.count_append, newline]
        rfl
    · refine ⟨texts, left ++ [c], ?_, whole, ?_, ?_⟩
      · rw [text, List.append_assoc]
      · rw [List.mem_append, List.mem_singleton, not_or]
        exact ⟨start, Ne.symm newline⟩
      · rw [count, List.count_append, List.count_singleton, if_neg (by simpa using newline)]
        rfl

/-- The first line of a text has what stands before the first line feed. -/
lemma exists_first_line {left : List Char} {c : Char} (start : '\n' ∉ left) (here : c ≠ '\n')
    (after : List Char) : ∃ right others,
      lines (String.ofList (left ++ c :: after)) =
        String.ofList (left ++ c :: right) :: others := by
  have plain {right : List Char} (line : '\n' ∉ right) : '\n' ∉ left ++ c :: right := by
    simp only [List.mem_append, List.mem_cons, not_or]
    exact ⟨start, Ne.symm here, line⟩
  by_cases newline : '\n' ∈ after
  · obtain ⟨right, behind, rfl, line⟩ := List.eq_append_cons_of_mem newline
    refine ⟨right, lines (String.ofList behind), ?_⟩
    rw [← lines_append_newline (plain line), List.append_assoc]
    rfl
  · refine ⟨after, [], lines_of_newline_not_mem ?_ (plain newline)⟩
    exact List.append_ne_nil_of_right_ne_nil _ (List.cons_ne_nil _ _)

/-- The line of a character is told by the number of line feeds before it. -/
lemma onLine_count (before : List Char) {c : Char} (here : c ≠ '\n') (after : List Char) :
    OnLine (String.ofList (before ++ c :: after)) before.length (before.count '\n') := by
  obtain ⟨texts, left, text, whole, start, count⟩ := exists_whole_lines before
  obtain ⟨right, others, first⟩ := exists_first_line start here after
  have cut : lines (String.ofList (before ++ c :: after)) =
      texts ++ String.ofList (left ++ c :: right) :: others := by
    rw [text, List.append_assoc, String.ofList_append, String.ofList_toList,
      lines_unlines_append whole, first]
  refine ⟨String.ofList (left ++ c :: right), left.length, ?_, ?_, ?_, ?_⟩
  · rw [cut, ← count, List.getElem?_append_right (le_refl _), Nat.sub_self]
    rfl
  · simp
  · simp
  · rw [cut, ← count, List.take_left, text, List.length_append, String.length_toList]

end Source

/-! ### Octets -/

/-- The failure for an octet beyond ASCII on the line with a number. -/
def Failure.nonAscii (octet : UInt8) (line : Nat) : Failure :=
  .diagnostic { fault := .nonAscii octet, location := { line := some line } }

lemma ofNat_eq_newline {octet : UInt8} :
    Char.ofNat octet.toNat = '\n' ↔ octet.toNat = '\n'.toNat := by
  rw [← Char.toNat_inj, toNat_ofNat_octet]

/-- The first octet beyond ASCII is found, and its line is told by the line feeds before it. -/
lemma findNonAscii_append {before : List UInt8} {octet : UInt8}
    (ascii : ∀ o ∈ before, o.toNat < 0x80) (beyond : 0x80 ≤ octet.toNat) (after : List UInt8)
    (line : Nat) : findNonAscii line (before ++ octet :: after) =
      some (line + (before.map fun o => Char.ofNat o.toNat).count '\n', octet) := by
  induction before generalizing line with
  | nil => exact if_pos beyond
  | cons o before ih =>
    have first := ascii o List.mem_cons_self
    rw [List.cons_append, findNonAscii, if_neg (by omega),
      ih fun o mem => ascii o (List.mem_cons_of_mem _ mem), List.map_cons, List.count_cons]
    simp only [beq_iff_eq, ofNat_eq_newline]
    split
    · simp only [Nat.add_assoc, Nat.add_comm 1]
    · rfl

lemma decodeAscii_append {before : List UInt8} {octet : UInt8}
    (ascii : ∀ o ∈ before, o.toNat < 0x80) (beyond : 0x80 ≤ octet.toNat) (after : List UInt8) :
    decodeAscii (before ++ octet :: after) =
      .error (Location.failure
        { line := some ((before.map fun o => Char.ofNat o.toNat).count '\n' + 1 : Nat) }
        (.nonAscii octet)) := by
  rw [decodeAscii, findNonAscii_append ascii beyond, Nat.add_comm]

/-- Octets are ASCII, or there is a first one beyond it. -/
lemma ascii_or_exists_first (octets : List UInt8) :
    (∀ octet ∈ octets, octet.toNat < 0x80) ∨
      ∃ before octet after, octets = before ++ octet :: after ∧
        (∀ o ∈ before, o.toNat < 0x80) ∧ 0x80 ≤ octet.toNat := by
  cases found : octets.find? fun octet => decide (0x80 ≤ octet.toNat) with
  | none =>
    left
    intro octet mem
    have small := List.find?_eq_none.1 found octet mem
    simpa using small
  | some octet =>
    obtain ⟨beyond, before, after, rfl, ascii⟩ := List.find?_eq_some_iff_append.1 found
    exact .inr ⟨before, octet, after, rfl, by simpa using ascii, by simpa using beyond⟩

/-! ### Files -/

/-- A fault that is told with the text of its line is no octet. -/
lemma Location.failure_ne_nonAscii (number : Nat) (text : String) (fault : Fault) (octet : UInt8)
    (line : Nat) : (ofLine number text).failure fault ≠ .nonAscii octet line := by
  intro failed
  unfold failure at failed
  split at failed
  · cases failed
  · cases failed

/-- What is wrong with a text is told with the text of its line, if it is not a number that is too
long, and so it is no octet. -/
lemma assemble_ne_nonAscii (source : String) (octet : UInt8) (line : Nat) :
    assemble source ≠ .error (.nonAscii octet line) := by
  intro err
  rcases assemble_eq_error.1 err with ⟨s, err⟩ | ⟨es, read, nodup, err⟩
  · obtain ⟨n, text, _, _, ⟨_, fault, _⟩ | ⟨token, mem, long⟩⟩ := stopsAt_of_ofSource err
    · exact Location.failure_ne_nonAscii _ _ _ _ _ fault.symm
    · obtain ⟨isLong | ⟨_, isLong⟩, _⟩ := long.hasLiteral (Source.isBlank_of_mem_operands mem)
      · cases isLong
      · cases isLong
  · obtain ⟨n, text, _, _, label, known, missing, _⟩ := missesLabel_of_resolveAll read nodup err
    exact Location.failure_ne_nonAscii _ _ _ _ _ missing.symm

lemma bytes_ne_nonAscii {source : String} {p : Program} (ok : assemble source = .ok p)
    (octet : UInt8) (line : Nat) : p.bytes ≠ .error (.nonAscii octet line) := by
  intro unfit
  rw [Program.bytes, (words_of_assemble ok).1] at unfit
  obtain ⟨value, _, range⟩ := wordsToBytes_eq_error.1 unfit
  rw [Failure.valueRange_eq_ite] at range
  split at range
  · cases range
  · cases range

namespace Session

variable {s : Session} {name : String}

lemma load_eq {octets : List UInt8} (stored : s.files.read name = .ok octets) :
    (s.load name).result = (decodeAscii octets).mapError .failure := by
  show ((s.files.read name).mapError SessionError.file).bind _ = _
  rw [stored]
  rfl

/-- A source that is read is assembled, and that is all if no output file is named. -/
lemma assembleFile_of_unnamed {source : String} {output : Option String}
    (loaded : (s.load name).result = .ok source) (unnamed : output = none ∨ output = some "") :
    (s.assembleFile name output).result = (s.assemble source).result ∧
      (s.assembleFile name output).state = (s.assemble source).state := by
  have absent : output.filter (fun name => !name.isEmpty) = none := by
    rcases unnamed with rfl | rfl
    · rfl
    · rfl
  have unchanged : (s.load name).state = s := rfl
  rw [assembleFile, Outcome.andThen_of_ok loaded]
  simp only [absent, unchanged]
  cases result : (s.assemble source).result with
  | error e =>
    rw [Outcome.andThen_of_error result]
    exact ⟨rfl, rfl⟩
  | ok p =>
    rw [Outcome.andThen_of_ok result]
    exact ⟨rfl, rfl⟩

/-- A file that can be read does not fail because of an octet. -/
lemma assembleFile_ne_nonAscii {source : String} (loaded : (s.load name).result = .ok source)
    (output : Option String) (octet : UInt8) (line : Nat) :
    (s.assembleFile name output).result ≠ .error (.failure (.nonAscii octet line)) := by
  obtain ⟨target, result⟩ : ∃ target, (s.assembleFile name output).result =
      (deliver s.files target (.ok source)).1 := by
    rw [← loaded]
    by_cases empty : output = some ""
    · -- The empty name counts as none.
      have unnamed : (none : Option String) ≠ some "" := fun h => by cases h
      rw [empty]
      exact ⟨none, (s.delivers_assembleFile name unnamed).result⟩
    · exact ⟨output, (s.delivers_assembleFile name empty).result⟩
  rw [result]
  simp only [deliver]
  cases assembled : Dcpu.assemble source with
  | error f =>
    intro failed
    cases failed
    exact assemble_ne_nonAscii source octet line assembled
  | ok p =>
    cases target with
    | none => exact fun failed => by cases failed
    | some target =>
      have unfit := bytes_ne_nonAscii assembled octet line
      simp only [save]
      split
      · exact fun failed => by cases failed
      · split
        · next f bytes =>
          intro failed
          cases failed
          exact unfit bytes
        · split <;> exact fun failed => by cases failed

/-- A file with an octet beyond ASCII leaves all as it is, and the failure tells the first such
octet and the line on which it stands. -/
lemma assembleFile_of_beyond {before after : List UInt8} {octet : UInt8}
    (stored : s.files.read name = .ok (before ++ octet :: after))
    (numbered : Source.IsNumbered (asciiText (before ++ octet :: after)))
    (ascii : ∀ o ∈ before, o.toNat < 0x80) (beyond : 0x80 ≤ octet.toNat) (output : Option String) :
    (s.assembleFile name output).state = s ∧
      ∃ n, Source.OnLine (asciiText (before ++ octet :: after)) before.length n ∧
        (s.assembleFile name output).result = .error (.failure (.nonAscii octet (n + 1))) := by
  have other : Char.ofNat octet.toNat ≠ '\n' := by
    intro newline
    rw [ofNat_eq_newline.1 newline] at beyond
    exact absurd beyond (by decide)
  have line := Source.onLine_count (before.map fun o => Char.ofNat o.toNat) other
    (after.map fun o => Char.ofNat o.toNat)
  rw [List.length_map] at line
  rw [asciiText, List.map_append] at numbered ⊢
  -- The octet stands on one of the lines, so the number of its line can be written.
  obtain ⟨_, _, here, _⟩ := id line
  have short : Location.isWritable
      { line := some ((before.map fun o => Char.ofNat o.toNat).count '\n' + 1 : Nat) } = true :=
    Text.isWritable_of_le (List.getElem?_eq_some_iff.1 here).1 (Text.isWritable_natCast.2 numbered)
  have unread := load_eq stored
  rw [decodeAscii_append ascii beyond, Location.failure_of_isWritable short rfl] at unread
  obtain ⟨state, result⟩ := call_of_unread (c := .file name output) unread
  exact ⟨state, _, line, result⟩

/-- A file is refused because of an octet exactly if it has one beyond ASCII. The failure names the
first such octet and the line on which it stands, and the session is as it was. Otherwise the file
is assembled like its text. -/
theorem assembleFile_nonAscii {octets : List UInt8} (stored : s.files.read name = .ok octets)
    (numbered : Source.IsNumbered (asciiText octets)) (output : Option String) :
    ((∃ octet line, (s.assembleFile name output).result =
        .error (.failure (.nonAscii octet line))) ↔ ∃ octet ∈ octets, 0x80 ≤ octet.toNat) ∧
      (∀ before octet after, octets = before ++ octet :: after →
        (∀ o ∈ before, o.toNat < 0x80) → 0x80 ≤ octet.toNat →
        (s.assembleFile name output).state = s ∧
          ∃ n, Source.OnLine (asciiText octets) before.length n ∧
            (s.assembleFile name output).result =
              .error (.failure (.nonAscii octet (n + 1)))) ∧
      ((∀ octet ∈ octets, octet.toNat < 0x80) → output = none ∨ output = some "" →
        (s.assembleFile name output).result = (s.assemble (asciiText octets)).result ∧
          (s.assembleFile name output).state = (s.assemble (asciiText octets)).state) := by
  have read (ascii : ∀ octet ∈ octets, octet.toNat < 0x80) :
      (s.load name).result = .ok (asciiText octets) := by
    rw [load_eq stored, decodeAscii_eq ascii]
    rfl
  refine ⟨⟨?_, ?_⟩, ?_, ?_⟩
  · rintro ⟨octet, line, failed⟩
    rcases ascii_or_exists_first octets with ascii | ⟨before, first, after, rfl, _, beyond⟩
    · exact absurd failed (assembleFile_ne_nonAscii (read ascii) output octet line)
    · exact ⟨first, List.mem_append_right _ List.mem_cons_self, beyond⟩
  · rintro ⟨octet, mem, beyond⟩
    rcases ascii_or_exists_first octets with ascii | ⟨before, first, after, rfl, ascii, high⟩
    · exact absurd (ascii octet mem) (Nat.not_lt.2 beyond)
    · obtain ⟨_, n, _, failed⟩ := assembleFile_of_beyond stored numbered ascii high output
      exact ⟨first, n + 1, failed⟩
  · rintro before octet after rfl ascii beyond
    exact assembleFile_of_beyond stored numbered ascii beyond output
  · exact fun ascii unnamed => assembleFile_of_unnamed (read ascii) unnamed

/-- An octet beyond ASCII at the beginning of the last line, which has no line feed, and a file of
ASCII. The session holds a program from before. -/
theorem assembleFile_nonAscii_last :
    let octets : List UInt8 := [0x41, 0x0a, 0x0a, 0xe9, 0x80]
    let s : Session := run { files := .ofEntries [] [("bad.s", octets), ("good.s", [0x3a, 0x61])] }
      [.assemble "SET A, 1"]
    s.assembler.program ≠ none ∧ s.files.read "bad.s" = .ok octets ∧
      Source.IsNumbered (asciiText octets) ∧
      (s.assembleFile "bad.s" (some "out")).result = .error (.failure (.nonAscii 0xe9 3)) ∧
      (s.assembleFile "bad.s" (some "out")).state = s ∧
      s.files.read "good.s" = .ok [0x3a, 0x61] ∧
      (s.assembleFile "good.s" none).result = (s.assemble ":a").result := by
  intro octets s
  have stored : s.files.read "bad.s" = .ok octets := toOption_eq_some.1 (by decide +kernel)
  have plain : s.files.read "good.s" = .ok [0x3a, 0x61] := toOption_eq_some.1 (by decide +kernel)
  have numbered : Source.IsNumbered (asciiText octets) := by decide +kernel
  obtain ⟨_, located, _⟩ := assembleFile_nonAscii stored numbered (some "out")
  obtain ⟨_, _, assembled⟩ := assembleFile_nonAscii plain (by decide +kernel) none
  have failed : (s.assembleFile "bad.s" (some "out")).result =
      .error (.failure (.nonAscii 0xe9 3)) := error?_eq_some.1 (by decide +kernel)
  obtain ⟨state, _⟩ :=
    located [0x41, 0x0a, 0x0a] 0xe9 [0x80] rfl (by decide +kernel) (by decide +kernel)
  obtain ⟨result, _⟩ := assembled (by decide +kernel) (.inl rfl)
  exact ⟨by decide +kernel, stored, numbered, failed, state, plain, result⟩

end Session

end Dcpu
