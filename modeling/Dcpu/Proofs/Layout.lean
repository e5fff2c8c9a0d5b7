import Dcpu.Proofs.Places
import Dcpu.Proofs.Serialising

/-!
# The layout of a source

How a source is laid out does not matter: which lines are blank, what is a comment and what stands
between two tokens. Up to places, assembling is a function of the tokens of the lines
(`erase_assemble_lines`), and of those lines only that have any (`erase_assemble`). A scan of one
source and a scan of another need not be in step for that; each of them is compared with a scan of
the tokens at no place (`Scan.erase_run`), which passes over lines without tokens
(`Scan.runTokens_filter`).

The numbers of the lines have to be short enough to be written (`Source.IsNumbered`). Otherwise a
fault behind many blank lines could not be reported where the same fault without them can.
-/

namespace Dcpu
open Results
open Source (Line lines)

/-- The tokens of the lines of a source, without the lines that have none. -/
def Source.tokenLines (source : String) : List (List String) :=
  ((lines source).map tokens).filter (· ≠ [])

open Source (tokenLines IsNumbered)

/-! ### Scanning tokens -/

namespace Scan

/-- Scans the tokens of a line at a place. -/
def tokenLine (s : Scan) (location : Location) (ts : List String) : Scan × Option Failure :=
  match Line.ofTokens location ts with
  | .error failure => (s, some failure)
  | .ok line =>
    match s.define line with
    | (s, some failure) => (s, some failure)
    | (s, none) => s.encode line

/-- Scans the tokens of lines at no place, up to the first fault. -/
def runTokens (s : Scan) : List (List String) → Scan × Option Failure
  | [] => (s, none)
  | ts :: rest =>
    match s.tokenLine {} ts with
    | (s, none) => s.runTokens rest
    | (s, some failure) => (s, some failure)

lemma line_eq (s : Scan) (number : Nat) (text : String) :
    s.line number text = s.tokenLine (.ofLine number text) (Source.tokens text) :=
  rfl

lemma erase_tokenLine {s : Scan} {location : Location} (written : s.table.IsWritable)
    (short : location.isWritable = true) (ts : List String) :
    eraseBoth (s.tokenLine location ts) = s.erase.tokenLine {} ts := by
  unfold tokenLine
  rw [← Line.erase_ofTokens short ts]
  cases parsed : Line.ofTokens location ts with
  | error f => rfl
  | ok line =>
    obtain ⟨_, rfl⟩ := Line.ofTokens_eq_ok.1 parsed
    dsimp only [mapBoth]
    rw [← erase_define written short]
    rcases s.define (.ofParts location ts) with ⟨s', _ | f⟩
    · exact erase_encode s' short
    · rfl

/-- A run over lines is a run over their tokens, places apart. -/
lemma erase_run {s : Scan} {number last : Nat} {texts : List String} (written : s.IsWritable)
    (short : Text.isWritable last = true) (le : number + texts.length ≤ last + 1) :
    eraseBoth (s.run number texts) = s.erase.runTokens (texts.map Source.tokens) := by
  induction texts generalizing s number with
  | nil => rfl
  | cons text texts ih =>
    rw [List.length_cons] at le
    have here : Text.isWritable number = true := Text.isWritable_of_le (by omega) short
    have place : (Location.ofLine number text).isWritable = true := here
    rw [List.map_cons, run, runTokens, ← erase_tokenLine written.table place, ← line_eq]
    rcases first : s.line number text with ⟨s', _ | f⟩
    · exact ih (written.line here first) (by omega)
    · rfl

/-- Lines without tokens leave nothing. -/
lemma runTokens_filter (s : Scan) (tss : List (List String)) :
    s.runTokens (tss.filter (· ≠ [])) = s.runTokens tss := by
  induction tss generalizing s with
  | nil => rfl
  | cons ts tss ih =>
    cases ts with
    | nil => exact ih s
    | cons t ts =>
      have kept : ((t :: ts) :: tss).filter (· ≠ []) = (t :: ts) :: tss.filter (· ≠ []) :=
        List.filter_cons_of_pos (by simp)
      rw [kept, runTokens, runTokens]
      split
      · next s' _ => exact ih s'
      · rfl

end Scan

/-- Assembles the tokens of lines at no place. -/
def assembleTokens (tss : List (List String)) : Except Failure Program :=
  match Scan.runTokens {} tss with
  | (_, some f) => .error f
  | (s, none) =>
    (Instruction.resolveAll s.instructions.toList s.table.labels).map fun instructions =>
      { instructions, labels := s.table.labels }

/-- Labels have the same addresses wherever they are defined. -/
lemma LabelTable.labels_erase (table : LabelTable) : table.erase.labels = table.labels := by
  rw [labels_eq, labels_eq, erase, definitions_ofDefinitions, List.map_map]
  rfl

/-- Up to places, assembling a source is assembling the tokens of its lines. -/
lemma erase_assemble_lines {source : String} (numbered : IsNumbered source) :
    mapBoth Failure.erase Program.erase (assemble source) =
      assembleTokens ((lines source).map Source.tokens) := by
  have start : Scan.erase {} = {} := by simp [Scan.erase]
  have scanned := Scan.erase_run Scan.isWritable_empty (Text.isWritable_natCast.2 numbered)
    (Nat.add_comm 1 _).le
  rw [start, ← Scan.ofSource] at scanned
  rw [assemble_eq, assembleTokens, ← scanned]
  rcases run : Scan.ofSource source with ⟨s, _ | f⟩
  · have instructions : s.erase.instructions.toList =
        s.instructions.toList.map Instruction.erase :=
      Array.toList_map
    have written := Scan.isWritable_ofSource numbered run
    simp only [Scan.eraseBoth, Option.map_none, Scan.erase_table, LabelTable.labels_erase]
    rw [instructions, ← Instruction.erase_resolveAll written.instructions]
    cases Instruction.resolveAll s.instructions.toList s.table.labels <;> rfl
  · rfl

/-- Up to places, assembling a source is assembling the tokens of those lines that have any. -/
lemma erase_assemble {source : String} (numbered : IsNumbered source) :
    mapBoth Failure.erase Program.erase (assemble source) = assembleTokens (tokenLines source) := by
  rw [erase_assemble_lines numbered, assembleTokens, assembleTokens, tokenLines,
    Scan.runTokens_filter]

/-! ### Two sources -/

/-- Programs that have the same words at the same addresses. -/
structure Program.SameWords (p q : Program) : Prop where
  words : p.words = q.words
  bytes : p.bytes = q.bytes
  addresses : p.addresses = q.addresses
  sizes : p.instructions.map Instruction.size = q.instructions.map Instruction.size
  size : p.size = q.size

/-- Programs that have the same words at the same addresses and the same labels. -/
structure Program.Agrees (p q : Program) : Prop extends p.SameWords q where
  labels : p.labels = q.labels

/-- Assembled programs whose instructions differ only in places have the same words. -/
lemma sameWords_of_erase {s t : String} {p q : Program} (left : assemble s = .ok p)
    (right : assemble t = .ok q)
    (same : p.instructions.map Instruction.erase = q.instructions.map Instruction.erase) :
    p.SameWords q := by
  have codes : (p.instructions.map fun i => i.fields.word :: i.values) =
      q.instructions.map fun i => i.fields.word :: i.values :=
    Instruction.map_eq_of_erase same fun _ => rfl
  have words : p.words = q.words := by
    rw [(words_of_assemble left).1, (words_of_assemble right).1, codes]
  have sizes : p.instructions.map Instruction.size = q.instructions.map Instruction.size :=
    Instruction.map_eq_of_erase same Instruction.erase_size
  refine ⟨words, ?_, Program.addressesFrom_congr sizes [] 0, sizes, ?_⟩
  · rw [Program.bytes, Program.bytes, words]
  · rw [Program.size_eq_sum, Program.size_eq_sum, sizes]

lemma agrees_of_erase {s t : String} {p q : Program} (left : assemble s = .ok p)
    (right : assemble t = .ok q) (same : p.erase = q.erase) : p.Agrees q := by
  have words := sameWords_of_erase left right (congrArg Program.instructions same)
  have labels : p.erase.labels = q.erase.labels := congrArg Program.labels same
  exact ⟨words, labels⟩

/-- Two sources with the same tokens on their lines, apart from lines that have none, are both
assembled to the same words, addresses and labels, or both fail for the same cause. -/
theorem assemble_eq_of_tokenLines {s t : String} (same : tokenLines s = tokenLines t)
    (left : IsNumbered s) (right : IsNumbered t) :
    (∃ p q, assemble s = .ok p ∧ assemble t = .ok q ∧ p.Agrees q) ∨
      ∃ f g, assemble s = .error f ∧ assemble t = .error g ∧ f.erase = g.erase := by
  have erased := erase_assemble left
  rw [same, ← erase_assemble right] at erased
  cases first : assemble s with
  | error f =>
    cases second : assemble t with
    | error g =>
      rw [first, second] at erased
      exact .inr ⟨f, g, rfl, rfl, Except.error.inj erased⟩
    | ok q =>
      rw [first, second] at erased
      cases erased
  | ok p =>
    cases second : assemble t with
    | error g =>
      rw [first, second] at erased
      cases erased
    | ok q =>
      rw [first, second] at erased
      exact .inl ⟨p, q, rfl, rfl, agrees_of_erase first second (Except.ok.inj erased)⟩

/-- A source with comments, blank lines, commas, a tab and a carriage return, and the same without
them. -/
theorem assemble_eq_of_tokenLines_plain :
    let s := "; start\n\n:loop, SET\tA,, 0x30 ; load\r\n\r\n SET PC loop"
    let t := ":loop SET A 0x30\nSET PC loop\n"
    tokenLines s = tokenLines t ∧ IsNumbered s ∧ IsNumbered t ∧
      ((∃ p q, assemble s = .ok p ∧ assemble t = .ok q ∧ p.Agrees q) ∨
        ∃ f g, assemble s = .error f ∧ assemble t = .error g ∧ f.erase = g.erase) := by
  intro s t
  have same : tokenLines s = tokenLines t := by decide +kernel
  have left : IsNumbered s := by decide +kernel
  have right : IsNumbered t := by decide +kernel
  exact ⟨same, left, right, assemble_eq_of_tokenLines same left right⟩

end Dcpu
