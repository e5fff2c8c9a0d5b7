import Dcpu.Code.Program
import Dcpu.Proofs.Results
import Dcpu.Text.Digit

/-!
# Reading a listing back

A numeral is written as the characters of its digits (`Text.exists_digits`), and in the range of
words as exactly four of them (`Text.writesWord_hex`). None of the characters of a number is a
colon, a blank or a line feed, so a listing can be cut into lines and each line into the number of
its source line and its words. What is read this way from the listing of a program are the line
numbers and the words of its instructions (`Listing.read?_listing`).
-/

namespace Dcpu
open Results

/-! ### Numbers -/

namespace Text

lemma ofDigits_append (base : Nat) (ds : List Nat) (d : Nat) :
    ofDigits base (ds ++ [d]) = base * ofDigits base ds + d := by
  rw [ofDigits, List.foldl_append]
  rfl

lemma ofDigits_zeros (base n : Nat) (ds : List Nat) :
    ofDigits base (List.replicate n 0 ++ ds) = ofDigits base ds := by
  have zeros : (List.replicate n 0).foldl (fun n d => base * n + d) 0 = 0 := by
    induction n with
    | zero => rfl
    | succ n ih =>
      rw [List.replicate_succ, List.foldl_cons]
      exact ih
  rw [ofDigits, List.foldl_append, zeros]
  rfl

/-- A numeral consists of the characters of the digits of its number. -/
lemma exists_digits {base : Nat} (two : 1 < base) (n : Nat) :
    ∃ ds, Nat.toDigits base n = ds.map Nat.digitChar ∧ (∀ d ∈ ds, d < base) ∧
      ofDigits base ds = n := by
  induction n using Nat.strong_induction_on with
  | _ n ih =>
    rcases Nat.lt_or_ge n base with small | large
    · refine ⟨[n], Nat.toDigits_of_lt_base small, ?_, ?_⟩
      · intro d mem
        cases List.mem_singleton.1 mem
        exact small
      · exact (ofDigits_append base [] n).trans (by rw [ofDigits]; simp)
    · -- The last digit is the remainder, and the quotient has the others.
      obtain ⟨ds, digits, bounded, value⟩ := ih (n / base) (Nat.div_lt_self (by omega) two)
      refine ⟨ds ++ [n % base], ?_, ?_, ?_⟩
      · rw [Nat.toDigits_of_base_le two large, digits, List.map_append]
        rfl
      · intro d mem
        rcases List.mem_append.1 mem with mem | mem
        · exact bounded d mem
        · cases List.mem_singleton.1 mem
          exact Nat.mod_lt n (by omega)
      · rw [ofDigits_append, value, Nat.div_add_mod]

/-- A digit is read back from its character. -/
lemma hexDigit?_digitChar {d : Nat} (small : d < 16) : hexDigit? (Nat.digitChar d) = some d := by
  interval_cases d <;> rfl

/-- Digits are read back from their characters. -/
lemma digits?_map {digit? : Char → Option Nat} {char : Nat → Char} {ds : List Nat}
    (nonempty : ds ≠ []) (reads : ∀ d ∈ ds, digit? (char d) = some d) :
    digits? digit? (ds.map char) = some ds := by
  rw [digits?, if_neg (by simpa using nonempty), mapM_eq_some, List.forall₂_map_left_iff,
    List.forall₂_same]
  exact reads

/-- The digits of a number in hexadecimal, with zeros in front. -/
lemma exists_digits_hex (width : Nat) {n : Int} (nonneg : 0 ≤ n) :
    ∃ ds, (hex width n).toList = ds.map Nat.digitChar ∧ (∀ d ∈ ds, d < 16) ∧
      (ofDigits 16 ds : Int) = n := by
  obtain ⟨ds, digits, bounded, value⟩ := exists_digits (by decide : 1 < 16) n.natAbs
  refine ⟨List.replicate (width - ds.length) 0 ++ ds, ?_, ?_, ?_⟩
  · rw [hex, if_neg (by omega), String.toList_ofList, zeroPad, digits, List.length_map,
      List.map_append, List.map_replicate]
    rfl
  · intro d mem
    rcases List.mem_append.1 mem with mem | mem
    · rw [List.eq_of_mem_replicate mem]
      decide
    · exact bounded d mem
  · rw [ofDigits_zeros, value]
    omega

/-- A number that is small enough has as many digits as are asked for. -/
lemma length_hex {width : Nat} {n : Int} (wide : 0 < width) (nonneg : 0 ≤ n)
    (small : n < 16 ^ width) : (hex width n).toList.length = width := by
  have short : (Nat.toDigits 16 n.natAbs).length ≤ width := by
    rw [Nat.length_toDigits_le_iff (by decide) wide]
    zify
    rwa [abs_of_nonneg nonneg]
  rw [hex, if_neg (by omega), String.toList_ofList, zeroPad, List.length_append,
    List.length_replicate]
  omega

/-- Tells whether a text is a word in exactly four hexadecimal digits, with small letters. -/
structure WritesWord (cs : List Char) (word : Int) : Prop where
  length : cs.length = 4
  small : ∀ c ∈ cs, c ∈ "0123456789abcdef".toList
  value : ∃ ds, digits? hexDigit? cs = some ds ∧ (ofDigits 16 ds : Int) = word

/-- A word is written in four digits. -/
lemma writesWord_hex {word : Int} (isWord : IsWord word) : WritesWord (hex 4 word).toList word := by
  obtain ⟨ds, digits, bounded, value⟩ := exists_digits_hex 4 isWord.1
  have length := length_hex (by decide : 0 < 4) isWord.1 (lt_of_le_of_lt isWord.2 (by decide))
  refine ⟨length, ?_, ds, ?_, value⟩
  · rw [digits]
    intro c mem
    obtain ⟨d, member, rfl⟩ := List.mem_map.1 mem
    have small := bounded d member
    interval_cases d <;> decide
  · rw [digits]
    apply digits?_map
    · rintro rfl
      rw [digits] at length
      cases length
    · exact fun d mem => hexDigit?_digitChar (bounded d mem)

/-- The characters with which an integer can be written. -/
def IsNumeric (c : Char) : Prop :=
  c = '-' ∨ ∃ d, c = Nat.digitChar d

lemma isNumeric_of_mem_toDigits {base n : Nat} {c : Char} (two : 1 < base)
    (mem : c ∈ Nat.toDigits base n) : IsNumeric c := by
  obtain ⟨ds, digits, _⟩ := exists_digits two n
  rw [digits] at mem
  obtain ⟨d, _, rfl⟩ := List.mem_map.1 mem
  exact .inr ⟨d, rfl⟩

lemma isNumeric_of_mem_hex {width : Nat} {n : Int} {c : Char} (mem : c ∈ (hex width n).toList) :
    IsNumeric c := by
  have padded {width : Nat} (mem : c ∈ zeroPad width (Nat.toDigits 16 n.natAbs)) :
      IsNumeric c := by
    rcases List.mem_append.1 mem with mem | mem
    · exact .inr ⟨0, List.eq_of_mem_replicate mem⟩
    · exact isNumeric_of_mem_toDigits (by decide) mem
  rw [hex, String.toList_ofList] at mem
  split at mem
  · rcases List.mem_cons.1 mem with rfl | mem
    · exact .inl rfl
    · exact padded mem
  · exact padded mem

lemma isNumeric_of_mem_decimal {n : Int} {c : Char} (mem : c ∈ (decimal n).toList) :
    IsNumeric c := by
  rw [decimal, String.toList_ofList] at mem
  split at mem
  · rcases List.mem_cons.1 mem with rfl | mem
    · exact .inl rfl
    · exact isNumeric_of_mem_toDigits (by decide) mem
  · exact isNumeric_of_mem_toDigits (by decide) mem

/-- No number has one of the characters that stand between numbers. -/
lemma IsNumeric.not_mem_separators {c : Char} (numeric : IsNumeric c) : c ∉ [':', ' ', '\n'] := by
  rcases numeric with rfl | ⟨d, rfl⟩
  · decide
  · simp

end Text

/-! ### Lines -/

namespace Listing

/-- A line of a listing: the text of the line number and the texts of the words. -/
structure Entry where
  number : List Char
  words : List (List Char)

/-- Reads a line. The number ends at the first colon; behind a blank the words follow, with single
blanks between them. -/
def readLine? (cs : List Char) : Option Entry :=
  match cs.dropWhile (· != ':') with
  | ':' :: ' ' :: rest => some { number := cs.takeWhile (· != ':'), words := rest.splitOn ' ' }
  | _ => none

/-- Reads a text line by line. The empty text has no lines. -/
def readLines? {α : Type} (readLine? : List Char → Option α) (text : String) : Option (List α) :=
  if text.isEmpty then some [] else (text.toList.splitOn '\n').mapM readLine?

/-- Reads a listing. -/
def read? : String → Option (List Entry) :=
  readLines? readLine?

/-- What the line of an instruction with its words should say. -/
def entry (i : Instruction) (words : List Int) : Entry where
  number := i.lineNumber.toList
  words := words.map fun word => (Text.hex 4 word).toList

/-- A number, a colon and words are read back from a line. -/
lemma readLine?_eq_some {number : List Char} {words : List (List Char)} (colon : ':' ∉ number)
    (blank : ∀ word ∈ words, ' ' ∉ word) (nonempty : words ≠ []) :
    readLine? (number ++ ':' :: ' ' :: [' '].intercalate words) = some ⟨number, words⟩ := by
  have before := bne_of_not_mem colon
  rw [readLine?, List.dropWhile_append_of_pos before, List.takeWhile_append_of_pos before]
  simp [List.splitOn_intercalate ' ' blank nonempty]

lemma not_mem_lineNumber {i : Instruction} {c : Char} (separator : c ∈ [':', ' ', '\n']) :
    c ∉ i.lineNumber.toList := by
  rw [Instruction.lineNumber]
  cases i.location.line with
  | none =>
    rw [List.mem_cons, List.mem_pair] at separator
    rcases separator with rfl | rfl | rfl <;> exact by decide
  | some n => exact fun mem => (Text.isNumeric_of_mem_decimal mem).not_mem_separators separator

lemma not_mem_entry (i : Instruction) (words : List Int) {c : Char}
    (separator : c ∈ [':', ' ', '\n']) : ∀ word ∈ (entry i words).words, c ∉ word := by
  intro text mem numeric
  obtain ⟨word, _, rfl⟩ := List.mem_map.1 mem
  exact (Text.isNumeric_of_mem_hex numeric).not_mem_separators separator

/-- An instruction is written exactly if the number of its line can be written and it has words. -/
lemma render_eq_ok {i : Instruction} {line : String} :
    i.render = .ok line ↔ i.location.isWritable = true ∧ ∃ words, i.words = .ok words ∧
      i.lineNumber ++ ": " ++ " ".intercalate (words.map (Text.hex 4)) = line := by
  unfold Instruction.render
  split
  · next short =>
    rw [map_eq_ok]
    exact (and_iff_right short).symm
  · next long => exact ⟨(fun h => by cases h), fun h => absurd h.1 long⟩

/-- The characters of the line for an instruction. -/
lemma toList_render {i : Instruction} {line : String} (rendered : i.render = .ok line) :
    ∃ words, i.words = .ok words ∧ words ≠ [] ∧ line.toList =
      (entry i words).number ++ ':' :: ' ' :: [' '].intercalate (entry i words).words := by
  obtain ⟨_, words, ok, rfl⟩ := render_eq_ok.1 rendered
  refine ⟨words, ok, ?_, ?_⟩
  · rintro rfl
    unfold Instruction.words at ok
    split at ok
    · obtain ⟨_, _, e⟩ := map_eq_ok.1 ok
      cases e
    · cases ok
  · simp [entry, String.toList_intercalate, List.map_map, Function.comp_def]

/-- The line for an instruction is read back. -/
lemma readLine?_render {i : Instruction} {line : String} (rendered : i.render = .ok line) :
    ∃ words, i.words = .ok words ∧ readLine? line.toList = some (entry i words) ∧
      '\n' ∉ line.toList := by
  obtain ⟨words, ok, nonempty, text⟩ := toList_render rendered
  refine ⟨words, ok, ?_, ?_⟩
  · rw [text]
    apply readLine?_eq_some
    · exact not_mem_lineNumber (by decide)
    · exact not_mem_entry i words (by decide)
    · simpa [entry] using nonempty
  · have words := not_mem_intercalate (by decide : '\n' ∉ [' '])
      (not_mem_entry i words (by decide))
    rw [text]
    simp only [List.mem_append, List.mem_cons, not_or]
    exact ⟨not_mem_lineNumber (by decide), by decide, by decide, words⟩

/-- Lines that are joined by line feeds are read one by one, if a line that can be read is not
empty. -/
lemma readLines?_intercalate {α : Type} {readLine? : List Char → Option α} {lines : List String}
    {xs : List α} (blank : readLine? [] = none) (line : ∀ line ∈ lines, '\n' ∉ line.toList)
    (each : List.Forall₂ (fun line x => readLine? line.toList = some x) lines xs) :
    readLines? readLine? ("\n".intercalate lines) = some xs := by
  cases each with
  | nil => rfl
  | @cons first x lines xs read each =>
    have text : ("\n".intercalate (first :: lines)).toList =
        ['\n'].intercalate ((first :: lines).map String.toList) :=
      String.toList_intercalate
    have cut : ("\n".intercalate (first :: lines)).toList.splitOn '\n' =
        (first :: lines).map String.toList := by
      rw [text]
      apply List.splitOn_intercalate
      · intro cs mem
        obtain ⟨l, member, rfl⟩ := List.mem_map.1 mem
        exact line l member
      · exact nofun
    -- The first line can be read, so the text is not the one without lines.
    have nonempty : ¬("\n".intercalate (first :: lines)).isEmpty = true := by
      intro empty
      rw [String.isEmpty_iff.1 empty] at cut
      have none : [] = first.toList := (List.cons.inj cut).1
      rw [← none, blank] at read
      cases read
    rw [readLines?, if_neg nonempty, cut, mapM_eq_some, List.forall₂_map_left_iff]
    exact .cons read each

/-- From the listing of a program the line numbers and words of its instructions are read. -/
lemma read?_listing {p : Program} {listing : String} (listed : p.listing = .ok listing) :
    ∃ entries, read? listing = some entries ∧
      List.Forall₂ (fun i e => ∃ words, i.words = .ok words ∧ e = entry i words)
        p.instructions entries := by
  obtain ⟨lines, rendered, rfl⟩ := map_eq_ok.1 listed
  have each := mapM_eq_ok.1 rendered
  have line : ∀ line ∈ lines, '\n' ∉ line.toList := by
    intro line mem
    obtain ⟨i, _, ok⟩ := exists_of_mem_right each mem
    obtain ⟨_, _, _, newline⟩ := readLine?_render ok
    exact newline
  have both : ∀ (i : Instruction) (line : String), i.render = .ok line → ∃ e,
      readLine? line.toList = some e ∧ ∃ words, i.words = .ok words ∧ e = entry i words := by
    intro i line ok
    obtain ⟨words, known, read, _⟩ := readLine?_render ok
    exact ⟨entry i words, read, words, known, rfl⟩
  obtain ⟨entries, read, written⟩ := forall₂_choose both each
  exact ⟨entries, readLines?_intercalate rfl line read, written⟩

/-- A program that has words has a listing exactly if the numbers of its lines can be written. -/
lemma exists_listing_iff {p : Program} {words : List Int} (known : p.words = .ok words) :
    (∃ listing, p.listing = .ok listing) ↔
      ∀ i ∈ p.instructions, i.location.isWritable = true := by
  constructor
  · rintro ⟨listing, listed⟩ i mem
    obtain ⟨lines, rendered, _⟩ := map_eq_ok.1 listed
    obtain ⟨line, _, here⟩ := exists_of_mem_left (mapM_eq_ok.1 rendered) mem
    exact (render_eq_ok.1 here).1
  · intro short
    obtain ⟨each, ok, _⟩ := map_eq_ok.1 known
    have rendered : ∀ i ∈ p.instructions, ∃ line, i.render = .ok line := by
      intro i mem
      obtain ⟨words, _, known⟩ := exists_of_mem_left (mapM_eq_ok.1 ok) mem
      exact ⟨_, render_eq_ok.2 ⟨short i mem, words, known, rfl⟩⟩
    obtain ⟨lines, all⟩ := exists_mapM_eq_ok rendered
    exact ⟨_, map_eq_ok.2 ⟨lines, all, rfl⟩⟩

/-- The words of a program are written in the entries of its listing. -/
lemma words_of_entries {p : Program} {entries : List Entry} {words : List Int}
    (known : p.words = .ok words)
    (written : List.Forall₂ (fun i e => ∃ words, i.words = .ok words ∧ e = entry i words)
      p.instructions entries) :
    entries.flatMap Entry.words = words.map fun word => (Text.hex 4 word).toList := by
  obtain ⟨each, ok, rfl⟩ := map_eq_ok.1 known
  have same : entries.map Entry.words =
      each.map (List.map fun word => (Text.hex 4 word).toList) := by
    apply map_eq_map_iff.2
    apply forall₂_trans ?_ written.flip (mapM_eq_ok.1 ok)
    rintro e i ws ⟨ws', known, rfl⟩ here
    rw [known] at here
    cases here
    rfl
  rw [List.flatMap_def, same, List.map_flatten]

end Listing

end Dcpu
