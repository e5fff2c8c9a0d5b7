import Dcpu.Proofs.Forms
import Dcpu.Proofs.References
import Dcpu.Proofs.Words

/-!
# Where assembling fails

A source that cannot be assembled fails in the first pass, at the first line that cannot be scanned,
or in the second, at the first reference to a label that no line defines. The lines behind a fault
of the first pass do not matter (`StopsAt`); a fault of the second pass names the missing label and
lists the labels that are defined, in order (`MissesLabel`).

Every failure is a diagnostic at a line of the source, except that a number of too many digits
(`IsOverlong`) is not reported as a fault of its line.
-/

namespace Dcpu
open Results
open Source (lines unlines operands tokens body HasLiteral IsLongDecimal Numeral)

/-! ### Numbers that are too long -/

lemma Text.ofDigits_lt {base : Nat} {ds : List Nat} (digits : ∀ d ∈ ds, d < base) :
    ofDigits base ds < base ^ ds.length := by
  -- The value before the digits is a parameter of the induction.
  have general (n : Nat) :
      ds.foldl (fun n d => base * n + d) n < (n + 1) * base ^ ds.length := by
    induction ds generalizing n with
    | nil => simp
    | cons d ds ih =>
      have first := digits d List.mem_cons_self
      have rest := ih (fun d mem => digits d (List.mem_cons_of_mem _ mem)) (base * n + d)
      rw [List.foldl_cons, List.length_cons, Nat.pow_succ']
      refine Nat.lt_of_lt_of_le rest ?_
      rw [← Nat.mul_assoc]
      refine Nat.mul_le_mul_right _ ?_
      rw [Nat.add_mul, Nat.one_mul, Nat.mul_comm n]
      omega
  have value := general 0
  rwa [Nat.zero_add, Nat.one_mul] at value

/-- A value that cannot be written has more decimal digits than the limit allows. -/
lemma Text.digitLimit_lt_of_isWritable {value : Nat} (long : isWritable value = false) :
    digitLimit < (Nat.digits 10 value).length := by
  apply Nat.lt_of_not_le
  intro short
  have writable : isWritable value = true := isWritable_iff.2 short
  rw [writable] at long
  cases long

namespace Source

/-- Tells whether a text is a decimal literal with more than 4300 digits or a hexadecimal one whose
value has more than 4300 decimal digits. -/
def IsOverlong (cs : List Char) : Prop :=
  IsLongDecimal cs ∨ ∃ digits ds, cs = '0' :: 'x' :: digits ∧ digits ≠ [] ∧
    List.Forall₂ (fun c d => Text.hexDigit? c = some d) digits ds ∧
    4300 < (Nat.digits 10 (Text.ofDigits 16 ds)).length

/-- A literal whose value cannot be written is too long. -/
lemma Numeral.isOverlong {cs : List Char} {value : Nat} (num : Numeral cs value)
    (long : Text.isWritable value = false) : IsOverlong cs := by
  have count : 4300 < (Nat.digits 10 value).length := Text.digitLimit_lt_of_isWritable long
  cases num with
  | hex nonempty digits => exact .inr ⟨_, _, rfl, nonempty, digits, count⟩
  | @decimal _ ds _ short digits =>
    -- A decimal literal that can be read is short, so its value can be written.
    have small : Text.ofDigits 10 ds < 10 ^ ds.length := by
      refine Text.ofDigits_lt fun d mem => ?_
      obtain ⟨c, _, digit⟩ := exists_of_mem_right digits mem
      exact Text.lt_ten_of_decimalDigit? digit
    have few := (Nat.digits_length_le_iff (by omega) _).2 small
    rw [digits.length_eq] at short
    omega

lemma HasLiteral.imp {P Q : List Char → Prop} {cs : List Char} (weaker : ∀ ds, P ds → Q ds)
    (has : HasLiteral P cs) : HasLiteral Q cs := by
  rcases has with here | ⟨inner, e, here⟩ | ⟨left, right, e, here⟩
  · exact .inl (weaker _ here)
  · exact .inr (.inl ⟨inner, e, weaker _ here⟩)
  · exact .inr (.inr ⟨left, right, e, weaker _ here⟩)

end Source

open Source (IsOverlong)

/-- A failure that is no diagnostic. -/
def Failure.IsLong (f : Failure) : Prop :=
  f = .longValue ∨ ∃ digits, f = .longLiteral digits

/-- An operand with a number that is too long has a literal that is too long. -/
lemma Failure.OverlongIn.hasLiteral {token : String} {f : Failure}
    (clean : ∀ c ∈ token.toList, Text.isBlank c = false) (long : f.OverlongIn token) :
    f.IsLong ∧ HasLiteral IsOverlong token.toList := by
  rcases long with err | ⟨rfl, o, value, ok, int, long⟩
  · obtain ⟨digits, has⟩ := Source.Operand.ofToken_eq_error clean err
    exact ⟨.inr digits, has.imp fun _ => .inl⟩
  · have has := Source.Operand.hasLiteral_of_integer? clean ok int
    exact ⟨.inl rfl, has.imp fun _ num => num.isOverlong long⟩

/-! ### The first pass -/

/-- Tells whether the first pass over a source succeeds. -/
def Source.Scans (source : String) : Prop :=
  (Assembler.scan {} source).result = .ok ()

open Source (Scans)

namespace Scan

/-- A source is not scanned if there is a first line that cannot be scanned. -/
lemma ofSource_eq_some {source : String} {s' : Scan} {f : Failure} :
    ofSource source = (s', some f) ↔
      ∃ n text s, (lines source)[n]? = some text ∧
        run {} 1 ((lines source).take n) = (s, none) ∧ s.line (n + 1) text = (s', some f) := by
  rw [ofSource, run_eq_some]
  constructor
  · rintro ⟨before, text, after, s, e, first, last⟩
    rw [e]
    refine ⟨before.length, text, s, by simp, by rwa [List.take_left], ?_⟩
    rwa [Nat.add_comm]
  · rintro ⟨n, text, s, line, first, last⟩
    obtain ⟨lt, rfl⟩ := List.getElem?_eq_some_iff.1 line
    refine ⟨(lines source).take n, (lines source)[n], (lines source).drop (n + 1), s, ?_, first, ?_⟩
    · rw [List.getElem_cons_drop, List.take_append_drop]
    · rwa [List.length_take_of_le (Nat.le_of_lt lt), Nat.add_comm]

end Scan

lemma Source.scans_iff {source : String} : Scans source ↔ (Scan.ofSource source).2 = none :=
  Assembler.scan_eq_ok

/-- The first pass stops at a line with a failure: the lines before it can be scanned, but not
together with it, and all sources with the same lines up to this one have the same failure. -/
structure StopsAt (source : String) (n : Nat) (f : Failure) : Prop where
  before : Scans (unlines ((lines source).take n))
  here : ¬Scans (unlines ((lines source).take (n + 1)))
  same : ∀ other, (lines other).take (n + 1) = (lines source).take (n + 1) →
    assemble other = .error f

/-- The first pass stops at a line that cannot be scanned behind those before it. -/
lemma stopsAt_of_line {source text : String} {n : Nat} {s s' : Scan} {f : Failure}
    (line : (lines source)[n]? = some text)
    (first : Scan.run {} 1 ((lines source).take n) = (s, none))
    (last : s.line (n + 1) text = (s', some f)) : StopsAt source n f := by
  -- The scan sees the lines before the one that fails and this line, and no other.
  have again {other : String} (same : (lines other).take (n + 1) = (lines source).take (n + 1)) :
      Scan.ofSource other = (s', some f) := by
    refine Scan.ofSource_eq_some.2 ⟨n, text, s, ?_, ?_, last⟩
    · rw [← List.getElem?_take_of_succ, same, List.getElem?_take_of_succ, line]
    · have shorter := congrArg (List.take n) same
      rw [List.take_take, List.take_take, Nat.min_eq_left (Nat.le_succ n)] at shorter
      rw [shorter, first]
  refine ⟨?_, ?_, ?_⟩
  · rw [Source.scans_iff, Scan.ofSource, Source.lines_unlines_take, first]
  · rw [Source.scans_iff, again (by rw [Source.lines_unlines_take, List.take_take, Nat.min_self])]
    exact Option.some_ne_none f
  · exact fun other same => assemble_eq_error.2 (.inl ⟨s', again same⟩)

/-- A first pass that fails stops at a line that has a fault or an operand with a number that is too
long. -/
lemma stopsAt_of_ofSource {source : String} {s' : Scan} {f : Failure}
    (err : Scan.ofSource source = (s', some f)) :
    ∃ n text, (lines source)[n]? = some text ∧ StopsAt source n f ∧
      (f.FaultOf (.ofLine (n + 1) text) ∨ ∃ token ∈ operands text, f.OverlongIn token) := by
  obtain ⟨n, text, s, line, first, last⟩ := Scan.ofSource_eq_some.1 err
  refine ⟨n, text, line, stopsAt_of_line line first last, Scan.line_eq_some ?_ last⟩
  -- The definitions so far are on lines before this one.
  intro short
  have before : 1 + ((lines source).take n).length ≤ n + 1 + 1 := by
    rw [List.length_take]
    omega
  exact (Scan.isWritable_empty.run short before first).table

/-! ### The second pass -/

/-- The second pass misses a label at a place: all lines can be scanned, and the failure names the
first label to which a line refers and that no line defines, and lists in order those that lines
define. -/
structure MissesLabel (source : String) (location : Location) (f : Failure) : Prop where
  scans : Scans source
  first : ∃ label known, f = location.failure (.undefinedLabel label known) ∧
    (Source.references source).find? (fun r => decide (r.2 ∉ Source.labels source)) =
      some (location, label) ∧
    known.Perm (Source.labels source) ∧ known.Pairwise (· ≤ ·)

/-- A second pass that fails misses a label at a line. -/
lemma missesLabel_of_resolveAll {source : String} {es : List Entry} {f : Failure}
    (read : Entry.readFrom 1 (lines source) = .ok es) (nodup : (Entry.labels es).Nodup)
    (err : Instruction.resolveAll (Entry.instructions es) (Entry.addresses 0 es) = .error f) :
    ∃ n text, (lines source)[n]? = some text ∧
      MissesLabel source (.ofLine (n + 1) text) f := by
  have scans : Scans source := by
    rw [Source.scans_iff, Scan.ofSource_eq_none.2 ⟨es, read, nodup, rfl⟩]
  obtain ⟨location, label, first, rfl⟩ := Instruction.resolveAll_eq_error err
  rw [Entry.located_of_readFrom read, Entry.names_addresses, Entry.labels_of_readFrom read] at first
  obtain ⟨n, text, line, rfl, _⟩ :=
    Source.mem_referencesFrom.1 (List.mem_of_find?_eq_some first)
  rw [Nat.add_comm] at first ⊢
  refine ⟨n, text, line, scans, label, _, rfl, first, ?_, ?_⟩
  · rw [Entry.names_addresses, Entry.labels_of_readFrom read]
    exact List.mergeSort_perm _ _
  · exact Fault.pairwise_mergeSort _

/-- A source that is not assembled fails at one of its lines. The failure is a fault of the line at
which the first pass stops, or a label that the second pass misses there, or the line has an operand
with a number of too many digits. -/
theorem assemble_error_located {source : String} {f : Failure} (err : assemble source = .error f) :
    ∃ n text, (lines source)[n]? = some text ∧
      (f.FaultOf (.ofLine (n + 1) text) ∧ StopsAt source n f ∨
        MissesLabel source (.ofLine (n + 1) text) f ∨
        f.IsLong ∧ StopsAt source n f ∧
          ∃ token ∈ operands text, HasLiteral IsOverlong token.toList) := by
  rcases assemble_eq_error.1 err with ⟨s, err⟩ | ⟨es, read, nodup, err⟩
  · obtain ⟨n, text, line, stops, fault | ⟨token, mem, long⟩⟩ := stopsAt_of_ofSource err
    · exact ⟨n, text, line, .inl ⟨fault, stops⟩⟩
    · obtain ⟨isLong, literal⟩ := long.hasLiteral (Source.isBlank_of_mem_operands mem)
      exact ⟨n, text, line, .inr (.inr ⟨isLong, stops, token, mem, literal⟩)⟩
  · obtain ⟨n, text, line, misses⟩ := missesLabel_of_resolveAll read nodup err
    exact ⟨n, text, line, .inr (.inl misses)⟩

/-- A label that is defined again, before a line that has a fault of its own. -/
theorem assemble_error_located_duplicate :
    let source := ":start SET A, 1\n:start SET B, 2\nSET"
    let f := (Location.ofLine 2 ":start SET B, 2").failure (.duplicateLabel "start" (some 1))
    assemble source = .error f ∧
      ∃ n text, (lines source)[n]? = some text ∧
        (f.FaultOf (.ofLine (n + 1) text) ∧ StopsAt source n f ∨
          MissesLabel source (.ofLine (n + 1) text) f ∨
          f.IsLong ∧ StopsAt source n f ∧
            ∃ token ∈ operands text, HasLiteral IsOverlong token.toList) := by
  intro source f
  have err : assemble source = .error f := error?_eq_some.1 (by decide +kernel)
  exact ⟨err, assemble_error_located err⟩

end Dcpu
