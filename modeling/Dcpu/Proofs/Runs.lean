import Dcpu.Proofs.Lines

/-!
# Tokens as runs

A token is a run of a line: a stretch of characters before the comment that are neither blanks nor
commas and that cannot be made longer at either end. The tokens are all the runs, in the order in
which they stand (`tokens_eq_runs`). A line written with one space between its tokens has the same
tokens, so writing it so again changes nothing.
-/

namespace Dcpu.Source
open Results

/-! ### Runs -/

section Runs

variable {p : Char → Bool}

/-- The stretch of a text from one position to before another is a run: it is not empty, it has no
separator, and what stands just before it and just behind it, if there is anything, is one. -/
structure IsRun (p : Char → Bool) (cs : List Char) (first last : Nat) : Prop where
  nonempty : first < last
  inside : ∀ i, first ≤ i → i < last → ∃ c, cs[i]? = some c ∧ p c = false
  before : ∀ i c, i + 1 = first → cs[i]? = some c → p c = true
  behind : ∀ c, cs[last]? = some c → p c = true

/-- Texts are the runs of a text in their order. -/
def ListsRuns (p : Char → Bool) (cs : List Char) (texts : List (List Char)) : Prop :=
  ∃ spans : List (Nat × Nat), spans.Pairwise (fun s t => s.1 < t.1) ∧
    (∀ first last, (first, last) ∈ spans ↔ IsRun p cs first last) ∧
    texts = spans.map fun s => (cs.drop s.1).take (s.2 - s.1)

/-- A text without separators is a run, unless it is empty. -/
lemma isRun_iff_of_free {cs : List Char} (free : ∀ c ∈ cs, p c = false) {first last : Nat} :
    IsRun p cs first last ↔ cs ≠ [] ∧ first = 0 ∧ last = cs.length := by
  have solid {i : Nat} {c : Char} (found : cs[i]? = some c) : p c = false :=
    free c (List.mem_of_getElem? found)
  constructor
  · rintro ⟨nonempty, inside, before, behind⟩
    obtain ⟨c, found, _⟩ := inside (last - 1) (by omega) (by omega)
    have bound := (List.getElem?_eq_some_iff.1 found).1
    refine ⟨List.ne_nil_of_length_pos (by omega), ?_, ?_⟩
    · by_contra positive
      obtain ⟨c, found, _⟩ := inside first (Nat.le_refl _) nonempty
      have bound := (List.getElem?_eq_some_iff.1 found).1
      have here := List.getElem?_eq_getElem (by omega : first - 1 < cs.length)
      exact absurd (before _ _ (by omega) here) (by rw [solid here]; simp)
    · by_contra short
      have here := List.getElem?_eq_getElem (by omega : last < cs.length)
      exact absurd (behind _ here) (by rw [solid here]; simp)
  · rintro ⟨nonempty, rfl, rfl⟩
    refine ⟨List.length_pos_iff.2 nonempty, ?_, by omega, ?_⟩
    · intro i _ bound
      have here := List.getElem?_eq_getElem bound
      exact ⟨_, here, solid here⟩
    · intro c found
      rw [List.getElem?_length] at found
      cases found

lemma getElem?_append_cons_length (front rest : List Char) (s : Char) :
    (front ++ s :: rest)[front.length]? = some s := by
  rw [List.getElem?_append_right (Nat.le_refl _), Nat.sub_self, List.getElem?_cons_zero]

/-- A stretch that ends before a separator is a run whatever stands behind the separator. -/
lemma isRun_append_left_iff {front rest : List Char} {s : Char} (sep : p s = true)
    {first last : Nat} (ends : last ≤ front.length) :
    IsRun p (front ++ s :: rest) first last ↔ IsRun p front first last := by
  have left {i : Nat} (bound : i < front.length) : (front ++ s :: rest)[i]? = front[i]? :=
    List.getElem?_append_left bound
  constructor
  · rintro ⟨nonempty, inside, before, behind⟩
    refine ⟨nonempty, ?_, ?_, ?_⟩
    · intro i ge lt
      rw [← left (by omega)]
      exact inside i ge lt
    · intro i c next found
      rw [← left (by omega)] at found
      exact before i c next found
    · intro c found
      have bound := (List.getElem?_eq_some_iff.1 found).1
      rw [← left bound] at found
      exact behind c found
  · rintro ⟨nonempty, inside, before, behind⟩
    refine ⟨nonempty, ?_, ?_, ?_⟩
    · intro i ge lt
      rw [left (by omega)]
      exact inside i ge lt
    · intro i c next found
      rw [left (by omega)] at found
      exact before i c next found
    · intro c found
      by_cases edge : last = front.length
      · rw [edge, getElem?_append_cons_length] at found
        cases found
        exact sep
      · rw [left (by omega)] at found
        exact behind c found

/-- The runs behind a separator are runs, further on in the whole text. -/
lemma isRun_append_right_iff {front rest : List Char} {s : Char} (sep : p s = true) {i j : Nat} :
    IsRun p (front ++ s :: rest) (i + (front.length + 1)) (j + (front.length + 1)) ↔
      IsRun p rest i j := by
  have right (k : Nat) : (front ++ s :: rest)[k + (front.length + 1)]? = rest[k]? := by
    rw [List.getElem?_append_right (by omega), Nat.add_sub_assoc (by omega),
      Nat.add_sub_cancel_left, List.getElem?_cons_succ]
  constructor
  · rintro ⟨nonempty, inside, before, behind⟩
    refine ⟨by omega, ?_, ?_, ?_⟩
    · intro k ge lt
      rw [← right]
      exact inside _ (by omega) (by omega)
    · intro k c next found
      rw [← right] at found
      exact before _ c (by omega) found
    · intro c found
      rw [← right] at found
      exact behind c found
  · rintro ⟨nonempty, inside, before, behind⟩
    refine ⟨by omega, ?_, ?_, ?_⟩
    · intro k ge lt
      obtain ⟨m, rfl⟩ := Nat.exists_eq_add_of_le' (by omega : front.length + 1 ≤ k)
      rw [right]
      exact inside m (by omega) (by omega)
    · intro k c next found
      by_cases edge : k = front.length
      · rw [edge, getElem?_append_cons_length] at found
        cases found
        exact sep
      · obtain ⟨m, rfl⟩ := Nat.exists_eq_add_of_le' (by omega : front.length + 1 ≤ k)
        rw [right] at found
        exact before m c (by omega) found
    · intro c found
      rw [right] at found
      exact behind c found

/-- The runs of a text are the part before its first separator, unless that is empty, and the runs
behind the separator. -/
lemma isRun_append_iff {front rest : List Char} {s : Char} (free : ∀ c ∈ front, p c = false)
    (sep : p s = true) {first last : Nat} :
    IsRun p (front ++ s :: rest) first last ↔
      (front ≠ [] ∧ first = 0 ∧ last = front.length) ∨
        ∃ i j, IsRun p rest i j ∧
          first = i + (front.length + 1) ∧ last = j + (front.length + 1) := by
  rw [← isRun_iff_of_free free]
  constructor
  · intro run
    by_cases early : last ≤ front.length
    · exact .inl ((isRun_append_left_iff sep early).1 run)
    · -- The separator is in no run, so the run begins behind it.
      have late : front.length < first := by
        by_contra spans
        obtain ⟨c, found, solid⟩ := run.inside front.length (by omega) (by omega)
        rw [getElem?_append_cons_length] at found
        cases found
        rw [sep] at solid
        cases solid
      obtain ⟨i, rfl⟩ := Nat.exists_eq_add_of_le' late
      obtain ⟨j, rfl⟩ := Nat.exists_eq_add_of_le' (Nat.lt_of_not_le early)
      exact .inr ⟨i, j, (isRun_append_right_iff sep).1 run, rfl, rfl⟩
  · rintro (run | ⟨i, j, run, rfl, rfl⟩)
    · have ends := ((isRun_iff_of_free free).1 run).2.2
      exact (isRun_append_left_iff sep ends.le).2 run
    · exact (isRun_append_right_iff sep).2 run

/-- A text has no separator, or it goes on behind its first one. -/
lemma free_or_append (p : Char → Bool) (cs : List Char) :
    (∀ c ∈ cs, p c = false) ∨
      ∃ front s rest, cs = front ++ s :: rest ∧ (∀ c ∈ front, p c = false) ∧ p s = true := by
  cases found : cs.find? p with
  | none => exact .inl fun c mem => Bool.eq_false_iff.2 (List.find?_eq_none.1 found c mem)
  | some s =>
    obtain ⟨sep, front, rest, e, free⟩ := List.find?_eq_some_iff_append.1 found
    exact .inr ⟨front, s, rest, e, fun c mem => by simpa using free c mem, sep⟩

/-- The one run of a text without separators, or none if the text is empty. -/
def wholeSpan (cs : List Char) : List (Nat × Nat) :=
  if cs = [] then [] else [(0, cs.length)]

lemma mem_wholeSpan {cs : List Char} {first last : Nat} :
    (first, last) ∈ wholeSpan cs ↔ cs ≠ [] ∧ first = 0 ∧ last = cs.length := by
  rw [wholeSpan]
  split <;> simp [*]

lemma map_wholeSpan (cs rest : List Char) :
    (wholeSpan cs).map (fun s => ((cs ++ rest).drop s.1).take (s.2 - s.1)) =
      [cs].filter (!·.isEmpty) := by
  rw [wholeSpan]
  split <;> simp [*]

lemma listsRuns_of_free {cs : List Char} (free : ∀ c ∈ cs, p c = false) :
    ListsRuns p cs ([cs].filter (!·.isEmpty)) := by
  refine ⟨wholeSpan cs, ?_, ?_, ?_⟩
  · rw [wholeSpan]
    split <;> simp
  · intro first last
    rw [mem_wholeSpan, isRun_iff_of_free free]
  · rw [← map_wholeSpan cs [], List.append_nil]

/-- The part before a separator is listed before the runs behind it. -/
lemma ListsRuns.append {front rest : List Char} {s : Char} {texts : List (List Char)}
    (free : ∀ c ∈ front, p c = false) (sep : p s = true) (lists : ListsRuns p rest texts) :
    ListsRuns p (front ++ s :: rest) ([front].filter (!·.isEmpty) ++ texts) := by
  obtain ⟨spans, ordered, complete, rfl⟩ := lists
  refine ⟨wholeSpan front ++
    spans.map fun s => (s.1 + (front.length + 1), s.2 + (front.length + 1)), ?_, ?_, ?_⟩
  · refine List.pairwise_append.2 ⟨?_, ?_, ?_⟩
    · rw [wholeSpan]
      split <;> simp
    · exact List.pairwise_map.2 (ordered.imp fun lt => Nat.add_lt_add_right lt _)
    · rintro ⟨first, last⟩ here t behind
      obtain ⟨_, rfl, _⟩ := mem_wholeSpan.1 here
      obtain ⟨s, _, rfl⟩ := List.mem_map.1 behind
      exact Nat.succ_pos _
  · intro first last
    rw [List.mem_append, mem_wholeSpan, isRun_append_iff free sep]
    refine or_congr_right ⟨?_, ?_⟩
    · intro mem
      obtain ⟨⟨i, j⟩, behind, e⟩ := List.mem_map.1 mem
      cases e
      exact ⟨i, j, (complete i j).1 behind, rfl, rfl⟩
    · rintro ⟨i, j, run, rfl, rfl⟩
      exact List.mem_map.2 ⟨(i, j), (complete i j).2 run, rfl⟩
  · rw [List.map_append, map_wholeSpan, List.map_map]
    congr 1
    refine List.map_congr_left fun span _ => ?_
    have skip : (front ++ s :: rest).drop (span.1 + (front.length + 1)) = rest.drop span.1 := by
      rw [Nat.add_comm, ← List.drop_drop]
      simp
    simp only [Function.comp_apply, skip, Nat.add_sub_add_right]

/-- The nonempty pieces of a text between its separators are its runs. -/
lemma listsRuns_splitOnP (p : Char → Bool) (cs : List Char) :
    ListsRuns p cs ((cs.splitOnP p).filter (!·.isEmpty)) := by
  induction length : cs.length using Nat.strong_induction_on generalizing cs with
  | _ n ih =>
    rcases free_or_append p cs with free | ⟨front, s, rest, rfl, free, sep⟩
    · rw [List.splitOnP_eq_singleton free]
      exact listsRuns_of_free free
    · have shorter : rest.length < n := by
        rw [← length, List.length_append, List.length_cons]
        omega
      have lists := (ih rest.length shorter rest rfl).append free sep
      rw [← List.filter_append, List.singleton_append] at lists
      rwa [List.splitOnP_append_cons_of_forall_mem free s sep]

end Runs

/-! ### The tokens of a line -/

/-- The code of a line goes up to the first semicolon. -/
lemma code_eq (cs : List Char) :
    ';' ∉ code cs ∧ (cs = code cs ∨ ∃ comment, cs = code cs ++ ';' :: comment) := by
  refine ⟨fun mem => absurd (List.mem_takeWhile_imp mem) (by decide), ?_⟩
  have parts : code cs ++ cs.dropWhile (· != ';') = cs := List.takeWhile_append_dropWhile
  cases rest : cs.dropWhile (· != ';') with
  | nil =>
    rw [rest, List.append_nil] at parts
    exact .inl parts.symm
  | cons c comment =>
    have nonempty : cs.dropWhile (· != ';') ≠ [] := by
      rw [rest]
      exact List.cons_ne_nil _ _
    have stop := List.head_dropWhile_not (· != ';') nonempty
    simp only [rest, List.head_cons, bne_eq_false_iff_eq] at stop
    rw [rest, stop] at parts
    exact .inr ⟨comment, parts.symm⟩

lemma code_eq_self {cs : List Char} (plain : ';' ∉ cs) : code cs = cs := by
  rcases (code_eq cs).2 with whole | ⟨comment, e⟩
  · exact whole.symm
  · refine absurd ?_ plain
    rw [e]
    exact List.mem_append_right _ List.mem_cons_self

lemma semicolon_not_mem_of_mem_pieces {line piece : List Char} (mem : piece ∈ pieces line) :
    ';' ∉ piece := by
  intro semicolon
  have cut := (List.mem_filter.1 mem).1
  exact (code_eq line).1
    ((flatten_splitOnP_sublist _ _).subset (List.mem_flatten_of_mem cut semicolon))

/-- Nonempty texts without separators that are joined by spaces are cut apart again. -/
lemma filter_splitOnP_intercalate {ps : List (List Char)}
    (solid : ∀ piece ∈ ps, piece ≠ [] ∧ ∀ c ∈ piece, isSeparator c = false) :
    (([' '].intercalate ps).splitOnP isSeparator).filter (!·.isEmpty) = ps := by
  induction ps with
  | nil => rfl
  | cons piece ps ih =>
    obtain ⟨nonempty, free⟩ := solid piece List.mem_cons_self
    have others := ih fun piece mem => solid piece (List.mem_cons_of_mem _ mem)
    have kept (rest : List (List Char)) :
        (piece :: rest).filter (!·.isEmpty) = piece :: rest.filter (!·.isEmpty) :=
      List.filter_cons_of_pos (by simpa using nonempty)
    cases ps with
    | nil =>
      rw [List.intercalate_singleton, List.splitOnP_eq_singleton free, kept, List.filter_nil]
    | cons next ps =>
      rw [List.intercalate_cons_cons, List.append_assoc, List.singleton_append,
        List.splitOnP_append_cons_of_forall_mem free ' ' rfl, kept, others]

/-- A line written with single spaces has the same tokens. -/
lemma pieces_cleaned (line : List Char) : pieces (cleaned line) = pieces line := by
  have plain : ';' ∉ cleaned line := by
    rw [cleaned_eq]
    exact not_mem_intercalate (by decide) fun piece => semicolon_not_mem_of_mem_pieces
  rw [pieces, code_eq_self plain, cleaned_eq]
  exact filter_splitOnP_intercalate fun piece => isSeparator_of_mem_pieces

lemma tokens_normalize (line : String) : tokens (normalize line) = tokens line := by
  rw [tokens_eq, tokens_eq, normalize, String.toList_ofList, pieces_cleaned]

lemma normalize_eq (line : String) : normalize line = " ".intercalate (tokens line) := by
  rw [← String.toList_inj, String.toList_intercalate, normalize, String.toList_ofList, cleaned_eq,
    tokens_eq, List.map_map]
  simp [Function.comp_def]

lemma normalize_normalize (line : String) : normalize (normalize line) = normalize line := by
  rw [normalize_eq (normalize line), tokens_normalize, ← normalize_eq]

/-- The tokens of a line are the runs of what stands before its first semicolon: the longest
nonempty stretches without blanks and commas, all of them and in their order. The normalized line is
its tokens with a space between them. So a token is not empty and has no blank, comma or semicolon,
and to normalize a line twice, or before its tokens are taken, makes no difference. -/
theorem tokens_eq_runs (line : String) :
    (∃ before, ';' ∉ before ∧
      (line.toList = before ∨ ∃ comment, line.toList = before ++ ';' :: comment) ∧
      ListsRuns isSeparator before ((tokens line).map String.toList)) ∧
    normalize line = " ".intercalate (tokens line) ∧
    (∀ token ∈ tokens line, token ≠ "" ∧
      ∀ c ∈ token.toList, Text.isBlank c = false ∧ c ≠ ',' ∧ c ≠ ';') ∧
    normalize (normalize line) = normalize line ∧
    tokens (normalize line) = tokens line := by
  refine ⟨⟨code line.toList, (code_eq _).1, (code_eq _).2, ?_⟩, normalize_eq line, ?_,
    normalize_normalize line, tokens_normalize line⟩
  · have same : (tokens line).map String.toList = pieces line.toList := by
      rw [tokens_eq, List.map_map]
      simp [Function.comp_def]
    rw [same]
    exact listsRuns_splitOnP isSeparator _
  · intro token mem
    obtain ⟨nonempty, free⟩ := isSeparator_of_mem_tokens mem
    rw [tokens_eq] at mem
    obtain ⟨piece, kept, rfl⟩ := List.mem_map.1 mem
    have plain := semicolon_not_mem_of_mem_pieces kept
    rw [String.toList_ofList] at nonempty free ⊢
    refine ⟨fun empty => nonempty ?_, fun c mem => ?_⟩
    · simpa using congrArg String.toList empty
    · have sep := free c mem
      rw [isSeparator, Bool.or_eq_false_iff, beq_eq_false_iff_ne] at sep
      refine ⟨sep.1, sep.2, ?_⟩
      rintro rfl
      exact plain mem

end Dcpu.Source
