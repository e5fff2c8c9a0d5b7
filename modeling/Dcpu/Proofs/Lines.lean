import Dcpu.Proofs.Results
import Dcpu.Source.Line

/-!
# Lines and their tokens

What the first cuts of a source leave: no line has a line feed, and no token has a blank. The tokens
are the nonempty pieces between separators (`tokens_eq`).

A list of lines is written back with a line feed behind each of them (`unlines`), and cutting this
text gives the lines again (`lines_unlines`). A text of whole lines (`EndsLine`) can be cut apart
from what comes behind it (`lines_append`). The lines of a source are what stands between its line
feeds (`segments`), except that nothing follows a line feed at the end (`lines_append_feed`,
`lines_of_not_endsLine`), and so they can be joined to the source again.

The tokens of a line are the label it defines (`label?`) and the statement behind it (`body`).
`Line.ofTokens` accepts them exactly if they have the shape of a line, and then its result is what
these two functions say (`Line.ofTokens_eq_ok`); otherwise the failure is a fault of the line.
-/

namespace Dcpu
open Results

/-- A failure is the fault of a line if it is a diagnostic at the place of the line whose cause is
not that a label is missing. If the number of the line is too long to be written, the failure tells
only that. -/
def Failure.FaultOf (location : Location) (f : Failure) : Prop :=
  ∃ fault : Fault, f = location.failure fault ∧ fault.category ≠ .undefinedLabel ∧
    (location.isWritable = true → fault.isWritable = true)

namespace Source

/-! ### Cutting -/

/-- No piece of a text has a character at which the text was cut. -/
lemma eq_false_of_mem_splitOnP {p : Char → Bool} {cs piece : List Char}
    (mem : piece ∈ cs.splitOnP p) : ∀ c ∈ piece, p c = false := by
  induction cs generalizing piece with
  | nil =>
    rw [List.splitOnP_nil, List.mem_singleton] at mem
    subst mem
    exact nofun
  | cons c cs ih =>
    rw [List.splitOnP_cons_eq_if_modifyHead] at mem
    obtain ⟨first, rest, e⟩ := List.exists_cons_of_ne_nil (List.splitOnP_ne_nil p cs)
    rw [e] at mem ih
    split at mem
    · rcases List.mem_cons.1 mem with rfl | mem
      · exact nofun
      · exact ih mem
    · next keep =>
      rw [List.modifyHead_cons] at mem
      rcases List.mem_cons.1 mem with rfl | mem
      · intro x hx
        rcases List.mem_cons.1 hx with rfl | hx
        · exact Bool.eq_false_iff.2 keep
        · exact ih List.mem_cons_self x hx
      · exact ih (List.mem_cons_of_mem _ mem)

/-- The pieces of a text are found in it one after the other. -/
lemma flatten_splitOnP_sublist (p : Char → Bool) (cs : List Char) :
    (cs.splitOnP p).flatten.Sublist cs := by
  induction cs with
  | nil =>
    rw [List.splitOnP_nil]
    exact List.Sublist.refl _
  | cons c cs ih =>
    obtain ⟨first, rest, e⟩ := List.exists_cons_of_ne_nil (List.splitOnP_ne_nil p cs)
    rw [List.splitOnP_cons_eq_if_modifyHead]
    rw [e] at ih ⊢
    split
    · exact ih.cons c
    · exact ih.cons_cons c

lemma not_mem_of_mem_splitOn {c : Char} {cs piece : List Char} (mem : piece ∈ cs.splitOn c) :
    c ∉ piece := by
  rw [List.splitOn_eq_splitOnP] at mem
  intro h
  exact absurd (eq_false_of_mem_splitOnP mem c h) (by simp)

lemma newline_not_mem_of_mem_lines {source text : String} (mem : text ∈ lines source) :
    '\n' ∉ text.toList := by
  obtain ⟨piece, kept, rfl⟩ := List.mem_map.1 mem
  rw [String.toList_ofList]
  split at kept
  · exact not_mem_of_mem_splitOn (List.dropLast_subset _ kept)
  · exact not_mem_of_mem_splitOn kept

lemma sum_length_lines_le (source : String) :
    ((lines source).map String.length).sum ≤ source.length := by
  have kept : ((lines source).map String.toList).flatten.Sublist source.toList := by
    apply List.Sublist.trans ?_ (flatten_splitOnP_sublist (· == '\n') source.toList)
    rw [← List.splitOn_eq_splitOnP, lines, List.map_map]
    simp only [Function.comp_def, String.toList_ofList, List.map_id']
    split
    · exact (List.dropLast_sublist _).flatten
    · exact List.Sublist.refl _
  have length := kept.length_le
  rw [List.length_flatten, List.map_map, String.length_toList] at length
  exact length

/-! ### Tokens -/

/-- Tells whether a character stands between tokens. -/
def isSeparator (c : Char) : Bool :=
  Text.isBlank c || c == ','

/-- A comma written as a space separates as before, and other characters stay what they are. -/
lemma splitOnP_spaced (cs : List Char) :
    (cs.map fun c => if c == ',' then ' ' else c).splitOnP Text.isBlank =
      cs.splitOnP isSeparator := by
  induction cs with
  | nil => rfl
  | cons c cs ih =>
    rw [List.map_cons, List.splitOnP_cons_eq_if_modifyHead, List.splitOnP_cons_eq_if_modifyHead, ih]
    by_cases comma : c = ','
    · rw [comma]
      rfl
    · have other : (c == ',') = false := beq_false_of_ne comma
      simp only [isSeparator, other, Bool.or_false, if_false, Bool.false_eq_true]

/-- The tokens as characters: the nonempty pieces between separators before the comment. -/
def pieces (line : List Char) : List (List Char) :=
  ((code line).splitOnP isSeparator).filter (!·.isEmpty)

lemma cleaned_eq (line : List Char) : cleaned line = [' '].intercalate (pieces line) := by
  rw [cleaned, Text.words, splitOnP_spaced, pieces]

/-- A piece is a nonempty text without separators. -/
lemma isSeparator_of_mem_pieces {line piece : List Char} (mem : piece ∈ pieces line) :
    piece ≠ [] ∧ ∀ c ∈ piece, isSeparator c = false := by
  obtain ⟨cut, nonempty⟩ := List.mem_filter.1 mem
  exact ⟨by simpa using nonempty, eq_false_of_mem_splitOnP cut⟩

/-- Cutting at the spaces undoes joining with spaces, since no piece has a blank. -/
lemma tokens_eq (line : String) : tokens line = (pieces line.toList).map String.ofList := by
  have clean := @isSeparator_of_mem_pieces line.toList
  simp only [tokens, cleaned_eq]
  generalize pieces line.toList = ps at clean
  cases ps with
  | nil => rfl
  | cons p ps =>
    have solid : ∀ piece ∈ p :: ps, ' ' ∉ piece := by
      intro piece mem space
      exact absurd ((clean mem).2 ' ' space) (by decide)
    have nonempty : ([' '].intercalate (p :: ps)).isEmpty = false := by
      obtain ⟨c, cs, rfl⟩ := List.exists_cons_of_ne_nil (clean List.mem_cons_self).1
      cases ps <;> simp
    rw [nonempty, List.splitOn_intercalate ' ' solid (List.cons_ne_nil _ _)]
    rfl

/-- A token is a nonempty text without separators. -/
lemma isSeparator_of_mem_tokens {text token : String} (mem : token ∈ tokens text) :
    token.toList ≠ [] ∧ ∀ c ∈ token.toList, isSeparator c = false := by
  rw [tokens_eq] at mem
  obtain ⟨piece, kept, rfl⟩ := List.mem_map.1 mem
  rw [String.toList_ofList]
  exact isSeparator_of_mem_pieces kept

lemma isBlank_of_mem_tokens {text token : String} (mem : token ∈ tokens text) :
    ∀ c ∈ token.toList, Text.isBlank c = false := by
  intro c hc
  have sep := (isSeparator_of_mem_tokens mem).2 c hc
  rw [isSeparator, Bool.or_eq_false_iff] at sep
  exact sep.1

lemma length_tokens_le (text : String) : (tokens text).length ≤ text.length := by
  have cut : ((tokens text).map String.toList).flatten.Sublist text.toList := by
    apply List.Sublist.trans ?_ (List.takeWhile_sublist (· != ';'))
    apply List.Sublist.trans ?_ (flatten_splitOnP_sublist isSeparator _)
    rw [tokens_eq, List.map_map]
    simp only [Function.comp_def, String.toList_ofList, List.map_id']
    exact List.filter_sublist.flatten
  have length := cut.length_le
  rw [List.length_flatten, List.map_map, String.length_toList] at length
  have nonempty : (tokens text).length ≤ ((tokens text).map String.length).sum := by
    rw [← List.length_map (f := String.length)]
    apply List.length_le_sum_of_one_le
    intro n mem
    obtain ⟨token, member, rfl⟩ := List.mem_map.1 mem
    rw [← String.length_toList]
    exact List.length_pos_iff.2 (isSeparator_of_mem_tokens member).1
  exact nonempty.trans length

/-! ### Whole lines -/

/-- Lines as one text, each of them ended by a line feed. -/
def unlines (texts : List String) : String :=
  String.ofList (texts.flatMap fun text => text.toList ++ ['\n'])

/-- The text up to the first line feed is the first line. -/
lemma lines_append_newline {first rest : List Char} (line : '\n' ∉ first) :
    lines (String.ofList (first ++ '\n' :: rest)) =
      String.ofList first :: lines (String.ofList rest) := by
  simp only [lines, String.toList_ofList, List.splitOn_append_cons_self_of_not_mem line]
  have nonempty := List.splitOn_ne_nil '\n' rest
  obtain ⟨piece, pieces, e⟩ := List.exists_cons_of_ne_nil nonempty
  rw [e, List.getLast?_cons_cons]
  split
  · rw [List.dropLast_cons_cons, List.map_cons]
  · rw [List.map_cons]

/-- A text that is not empty and has no line feed is a line. -/
lemma lines_of_newline_not_mem {cs : List Char} (nonempty : cs ≠ []) (line : '\n' ∉ cs) :
    lines (String.ofList cs) = [String.ofList cs] := by
  simp only [lines, String.toList_ofList, List.splitOn_eq_singleton line, List.getLast?_singleton,
    Option.some.injEq, if_neg nonempty, List.map_cons, List.map_nil]

/-- Lines are found again in their common text, whatever comes behind it. -/
lemma lines_unlines_append {texts : List String} (line : ∀ text ∈ texts, '\n' ∉ text.toList)
    (rest : String) : lines (unlines texts ++ rest) = texts ++ lines rest := by
  induction texts with
  | nil =>
    show lines ("" ++ rest) = lines rest
    rw [String.empty_append]
  | cons text texts ih =>
    have first := line text List.mem_cons_self
    have others := ih fun t mem => line t (List.mem_cons_of_mem _ mem)
    have behind : unlines (text :: texts) ++ rest =
        String.ofList (text.toList ++ '\n' :: (unlines texts ++ rest).toList) := by
      simp [unlines, String.ofList_append, String.append_assoc]
    rw [behind, lines_append_newline first, String.ofList_toList, String.ofList_toList, others]
    rfl

lemma lines_unlines {texts : List String} (line : ∀ text ∈ texts, '\n' ∉ text.toList) :
    lines (unlines texts) = texts := by
  have alone := lines_unlines_append line ""
  rw [String.append_empty] at alone
  rw [alone]
  exact List.append_nil texts

/-- Tells whether a text is empty or ends with a line feed. -/
def EndsLine (source : String) : Prop :=
  source = "" ∨ ∃ text, source = text ++ "\n"

lemma flatMap_splitOn (cs : List Char) :
    ((cs.splitOn '\n').flatMap fun piece => piece ++ ['\n']) = cs ++ ['\n'] := by
  rw [List.splitOn_eq_splitOnP]
  induction cs with
  | nil => rfl
  | cons c cs ih =>
    obtain ⟨first, rest, e⟩ := List.exists_cons_of_ne_nil (List.splitOnP_ne_nil (· == '\n') cs)
    rw [List.splitOnP_cons_eq_if_modifyHead]
    rw [e] at ih ⊢
    split
    · next newline =>
      rw [List.flatMap_cons, ih, beq_iff_eq.1 newline]
      rfl
    · exact congrArg (c :: ·) ih

/-- The texts between the line feeds of a text, also before the first and behind the last. -/
def segments (text : String) : List String :=
  (text.toList.splitOn '\n').map String.ofList

lemma newline_not_mem_of_mem_segments {text segment : String} (mem : segment ∈ segments text) :
    '\n' ∉ segment.toList := by
  obtain ⟨piece, cut, rfl⟩ := List.mem_map.1 mem
  rw [String.toList_ofList]
  exact not_mem_of_mem_splitOn cut

/-- Written as lines, the segments of a text have one line feed more than the text. -/
lemma unlines_segments (text : String) : unlines (segments text) = text ++ "\n" := by
  rw [unlines, segments, List.flatMap_map]
  simp only [String.toList_ofList]
  rw [flatMap_splitOn, String.ofList_append, String.ofList_toList]

/-- A text that ends with a line feed consists of whole lines. -/
lemma EndsLine.exists_unlines {source : String} (ends : EndsLine source) :
    ∃ texts, (∀ text ∈ texts, '\n' ∉ text.toList) ∧ source = unlines texts := by
  rcases ends with rfl | ⟨text, rfl⟩
  · exact ⟨[], (fun _ mem => by cases mem), rfl⟩
  · refine ⟨segments text, ?_, (unlines_segments text).symm⟩
    exact fun _ mem => newline_not_mem_of_mem_segments mem

/-- The lines of two texts, of which the first consists of whole lines. -/
lemma lines_append {source : String} (ends : EndsLine source) (rest : String) :
    lines (source ++ rest) = lines source ++ lines rest := by
  obtain ⟨texts, line, rfl⟩ := ends.exists_unlines
  rw [lines_unlines_append line, lines_unlines line]

/-- The first lines of a source, written as a source of their own. -/
lemma lines_unlines_take (source : String) (n : Nat) :
    lines (unlines ((lines source).take n)) = (lines source).take n :=
  lines_unlines fun _ mem => newline_not_mem_of_mem_lines (List.mem_of_mem_take mem)

/-! ### Joined lines -/

/-- The lines of a text that ends with a line feed are the segments before it. -/
lemma lines_append_feed (text : String) : lines (text ++ "\n") = segments text := by
  rw [← unlines_segments]
  exact lines_unlines fun _ mem => newline_not_mem_of_mem_segments mem

lemma endsLine_unlines (texts : List String) : EndsLine (unlines texts) := by
  rcases List.eq_nil_or_concat texts with rfl | ⟨front, last, rfl⟩
  · exact .inl rfl
  · refine .inr ⟨unlines front ++ last, ?_⟩
    rw [unlines, List.concat_eq_append, List.flatMap_append, String.ofList_append]
    simp [unlines, String.ofList_append, String.append_assoc]

/-- Behind the last line feed of a text there is an empty segment only if nothing stands there. -/
lemma endsLine_of_getLast? {source : String}
    (last : (source.toList.splitOn '\n').getLast? = some []) : EndsLine source := by
  obtain ⟨front, cut⟩ := List.getLast?_eq_some_iff.1 last
  have whole := flatMap_splitOn source.toList
  rw [cut, List.flatMap_append, List.flatMap_singleton, List.nil_append] at whole
  have before : source = unlines (front.map String.ofList) := by
    rw [unlines, List.flatMap_map]
    simp only [String.toList_ofList]
    rw [List.append_cancel_right whole, String.ofList_toList]
  rw [before]
  exact endsLine_unlines _

/-- The lines of a text that goes on behind its last line feed are its segments. -/
lemma lines_of_not_endsLine {source : String} (goesOn : ¬EndsLine source) :
    lines source = segments source := by
  have last : ¬(source.toList.splitOn '\n').getLast? = some [] :=
    fun empty => goesOn (endsLine_of_getLast? empty)
  rw [lines, segments]
  simp only [if_neg last]

/-- The segments of a text with line feeds between them are the text. -/
lemma intercalate_segments (text : String) : "\n".intercalate (segments text) = text := by
  rw [← String.toList_inj, String.toList_intercalate, segments, List.map_map]
  simp only [Function.comp_def, String.toList_ofList, List.map_id']
  exact List.intercalate_splitOn '\n'

/-- Cutting into lines can be undone. Lines that are written one after the other are found again.
The lines of a source have no line feed, and with line feeds between them they are the source, but
for one line feed at its end if it has one. Whole lines and what follows them are cut independently
of each other. -/
theorem lines_inverts_joining :
    (∀ texts : List String, (∀ text ∈ texts, '\n' ∉ text.toList) →
        lines (unlines texts) = texts) ∧
      (∀ source : String,
        (∀ text ∈ lines source, '\n' ∉ text.toList) ∧
        (∀ text, source = text ++ "\n" → "\n".intercalate (lines source) = text) ∧
        ((∀ text, source ≠ text ++ "\n") → "\n".intercalate (lines source) = source)) ∧
      ∀ source rest : String, EndsLine source →
        lines (source ++ rest) = lines source ++ lines rest := by
  refine ⟨fun _ whole => lines_unlines whole, ?_, fun _ rest ends => lines_append ends rest⟩
  intro source
  refine ⟨fun _ mem => newline_not_mem_of_mem_lines mem, ?_, ?_⟩
  · rintro text rfl
    rw [lines_append_feed, intercalate_segments]
  · intro goesOn
    by_cases empty : source = ""
    · rw [empty]
      rfl
    · have unended : ¬EndsLine source := by
        rintro (e | ⟨text, e⟩)
        · exact empty e
        · exact goesOn text e
      rw [lines_of_not_endsLine unended, intercalate_segments]

/-- Two line feeds at the end of a source leave an empty line, and joining loses one of them. -/
theorem lines_inverts_joining_feeds :
    '\n' ∉ "SET A, 1".toList ∧ lines (unlines ["SET A, 1", ""]) = ["SET A, 1", ""] ∧
      "\n".intercalate (lines "SET A, 1\n\n") = "SET A, 1\n" ∧
      "\n".intercalate (lines "\n:end") = "\n:end" ∧
      EndsLine "\n" ∧ lines ("\n" ++ ":end") = lines "\n" ++ lines ":end" := by
  obtain ⟨written, cut, apart⟩ := lines_inverts_joining
  have feed : EndsLine "\n" := .inr ⟨"", rfl⟩
  refine ⟨by decide, written _ (by decide), (cut _).2.1 _ rfl, (cut _).2.2 ?_, feed,
    apart _ _ feed⟩
  intro text e
  have last := congrArg (·.toList.getLast?) e
  rw [String.toList_append] at last
  simp at last

/-! ### The parts of a line -/

/-- The label that the tokens of a line define. -/
def label? : List String → Option String
  | [] => none
  | first :: _ => (Line.labelPart? first).map String.ofList

/-- The tokens of a line behind its label. -/
def body : List String → List String
  | [] => []
  | first :: rest => if (Line.labelPart? first).isSome then rest else first :: rest

/-- The mnemonic on a line: its first token that does not define a label. -/
def mnemonic? (text : String) : Option String :=
  (body (tokens text)).head?

/-- The tokens of the operands on a line. -/
def operands (text : String) : List String :=
  (body (tokens text)).tail

lemma body_sublist (ts : List String) : (body ts).Sublist ts := by
  cases ts with
  | nil => exact List.Sublist.refl _
  | cons first rest =>
    rw [body]
    split
    · exact List.sublist_cons_self _ _
    · exact List.Sublist.refl _

lemma body_subset (ts : List String) : body ts ⊆ ts :=
  (body_sublist ts).subset

lemma isBlank_of_mem_operands {text token : String} (mem : token ∈ operands text) :
    ∀ c ∈ token.toList, Text.isBlank c = false :=
  isBlank_of_mem_tokens (body_subset _ (List.mem_of_mem_tail mem))

/-- The lines of a source with mnemonics, with their numbers. -/
def codeLines (source : String) : List (String × Nat) :=
  ((lines source).zipIdx 1).filter fun line => (mnemonic? line.1).isSome

/-- Tells whether tokens have the shape of a line: the label is a proper name, and it stands alone
or there are two to four tokens. -/
def IsShaped (tokens : List String) : Prop :=
  (∀ name ∈ label? tokens, isLabelName name.toList = true) ∧
    (body tokens = [] ∨ 2 ≤ tokens.length ∧ tokens.length ≤ 4)

namespace Line

/-- The line that tokens of the right shape denote. -/
def ofParts (location : Location) (tokens : List String) : Line where
  location := location
  label := label? tokens
  mnemonic := (body tokens).head?
  operands := (body tokens).tail

/-- Tokens are a line or have a fault, as their shape tells. -/
lemma ofTokens_cases (location : Location) (tokens : List String) :
    IsShaped tokens ∧ ofTokens location tokens = .ok (ofParts location tokens) ∨
      ¬IsShaped tokens ∧ ∃ f, ofTokens location tokens = .error f ∧ f.FaultOf location := by
  cases tokens with
  | nil => exact .inl ⟨⟨(fun _ mem => by cases mem), .inl rfl⟩, rfl⟩
  | cons first rest =>
    cases part : labelPart? first with
    | none =>
      simp only [IsShaped, label?, body, ofParts, ofTokens, statement, part, List.length_cons]
      by_cases count : 2 ≤ rest.length + 1 ∧ rest.length + 1 ≤ 4
      · refine .inl ⟨⟨(fun _ mem => by cases mem), .inr count⟩, ?_⟩
        exact if_pos (by simpa using count)
      · refine .inr ⟨fun shape => shape.2.elim (List.cons_ne_nil _ _) count, ?_⟩
        refine ⟨_, ?_, .tokenCount (rest.length + 1), rfl, (fun h => by cases h), fun _ => rfl⟩
        exact if_neg (by simpa using count)
    | some name =>
      simp only [IsShaped, label?, body, ofParts, ofTokens, part, List.length_cons, Option.map_some,
        Option.mem_some_iff, forall_eq', String.toList_ofList, Option.isSome_some, if_true]
      by_cases count : rest = [] ∨ 2 ≤ rest.length + 1 ∧ rest.length + 1 ≤ 4
      · have inRange : (rest.isEmpty || decide (2 ≤ rest.length + 1) &&
            decide (rest.length + 1 ≤ 4)) = true := by
          simpa using count
        by_cases proper : isLabelName name = true
        · have nonempty : name.isEmpty = false := by
            rw [isLabelName, Bool.and_eq_true] at proper
            simpa using proper.1
          refine .inl ⟨⟨proper, count⟩, ?_⟩
          simp only [inRange, nonempty, proper]
          cases rest <;> rfl
        · refine .inr ⟨fun shape => proper shape.1, ?_⟩
          simp only [inRange, Bool.not_eq_true] at proper ⊢
          by_cases empty : name.isEmpty = true
          · refine ⟨_, ?_, .emptyLabel, rfl, (fun h => by cases h), fun _ => rfl⟩
            simp only [empty]
            rfl
          · rw [Bool.not_eq_true] at empty
            refine ⟨_, ?_, .labelName (String.ofList name), rfl, (fun h => by cases h), fun _ => rfl⟩
            simp only [empty, proper]
            rfl
      · have outOfRange : (rest.isEmpty || decide (2 ≤ rest.length + 1) &&
            decide (rest.length + 1 ≤ 4)) = false := by
          rw [← Bool.not_eq_true]
          simpa using count
        refine .inr ⟨fun shape => count shape.2, ?_⟩
        refine ⟨_, ?_, .tokenCount (rest.length + 1), rfl, (fun h => by cases h), fun _ => rfl⟩
        simp only [outOfRange]
        rfl

/-- Tokens are a line exactly if they have the shape of one. -/
lemma ofTokens_eq_ok {location : Location} {tokens : List String} {line : Line} :
    ofTokens location tokens = .ok line ↔ IsShaped tokens ∧ line = ofParts location tokens := by
  rcases ofTokens_cases location tokens with ⟨shape, ok⟩ | ⟨shape, f, err, _⟩
  · rw [ok]
    exact ⟨fun h => by cases h; exact ⟨shape, rfl⟩, fun h => by rw [h.2]⟩
  · rw [err]
    exact ⟨nofun, fun h => absurd h.1 shape⟩

lemma ofTokens_eq_error {location : Location} {tokens : List String} {f : Failure}
    (err : ofTokens location tokens = .error f) : f.FaultOf location := by
  rcases ofTokens_cases location tokens with ⟨_, ok⟩ | ⟨_, f', err', fault⟩
  · rw [ok] at err
    cases err
  · rw [err'] at err
    cases err
    exact fault

end Line

end Source

end Dcpu
