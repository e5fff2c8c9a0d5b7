import Dcpu.Proofs.Listing
import Dcpu.Proofs.Recognition

/-!
# The values of integer literals

A digit is told by its character (`Text.DecimalDigit`, `Text.HexDigit`), and a list of digits has a
value by their places (`Text.placeValue`): a digit counts times the power of the base that belongs
to its place. `ReadsInteger` has one rule for each way in which a token can be read as an integer,
and every token is read in exactly one way (`readsInteger`, `ReadsInteger.eq`). The digits of a
number, with any zeros before them, are read as this number.
-/

namespace Dcpu
open Results

/-! ### Digits -/

namespace Text

/-- Relates a decimal digit to its value: it is one of the ten characters that begin with the zero
of a script. -/
def DecimalDigit (c : Char) (d : Nat) : Prop :=
  d < 10 ∧ ∃ start ∈ decimalZeros, c.toNat = start + d

/-- Relates a hexadecimal digit, of which the letters may be small or capital, to its value. -/
def HexDigit (c : Char) (d : Nat) : Prop :=
  d < 16 ∧ (c = Nat.digitChar d ∨ c = (Nat.digitChar d).toUpper)

/-- The value of digits by their places, which are counted from the last digit on. -/
def placeValue (base : Nat) (digits : List Nat) : Nat :=
  (digits.reverse.mapIdx fun place d => d * base ^ place).sum

lemma ofDigits_eq_placeValue (base : Nat) (ds : List Nat) :
    ofDigits base ds = placeValue base ds := by
  rw [placeValue, ← Nat.ofDigits_eq_sum_mapIdx]
  induction ds using List.reverseRecOn with
  | nil => rfl
  | append_singleton ds d ih =>
    rw [ofDigits_append, ih, List.reverse_append, List.reverse_singleton, List.singleton_append,
      Nat.ofDigits_cons, Nat.add_comm]

/-- The digits of one script end before those of the next begin. -/
lemma eq_of_mem_decimalZeros {start other n : Nat} (mem : start ∈ decimalZeros)
    (member : other ∈ decimalZeros) (first : start ≤ n ∧ n < start + 10)
    (second : other ≤ n ∧ n < other + 10) : start = other := by
  have apart : ∀ a ∈ decimalZeros, ∀ b ∈ decimalZeros, a < b + 10 → b < a + 10 → a = b := by
    decide +kernel
  exact apart start mem other member (by omega) (by omega)

lemma decimalDigit?_eq_some {c : Char} {d : Nat} :
    decimalDigit? c = some d ↔ DecimalDigit c d := by
  constructor
  · intro digit
    obtain ⟨start, mem, here⟩ := List.exists_of_findSome?_eq_some digit
    split at here
    · cases here
      exact ⟨by omega, start, mem, by omega⟩
    · cases here
  · rintro ⟨small, start, mem, place⟩
    cases digit : decimalDigit? c with
    | none =>
      have nowhere := List.findSome?_eq_none_iff.1 digit start mem
      rw [if_pos (by omega)] at nowhere
      cases nowhere
    | some e =>
      obtain ⟨other, member, here⟩ := List.exists_of_findSome?_eq_some digit
      split at here
      · next within =>
        cases here
        cases eq_of_mem_decimalZeros mem member (by omega) within
        congr 1
        omega
      · cases here

lemma toNat_digitChar {d : Nat} (small : d < 16) :
    (Nat.digitChar d).toNat = (if d < 10 then 0x30 else 0x57) + d ∧
      (Nat.digitChar d).toUpper.toNat = (if d < 10 then 0x30 else 0x37) + d := by
  interval_cases d <;> exact ⟨rfl, rfl⟩

lemma hexDigit?_eq_some {c : Char} {d : Nat} : hexDigit? c = some d ↔ HexDigit c d := by
  constructor
  · intro digit
    have small := lt_sixteen_of_hexDigit? digit
    obtain ⟨lower, upper⟩ := toNat_digitChar small
    refine ⟨small, ?_⟩
    rw [← Char.toNat_inj, ← Char.toNat_inj, lower, upper]
    simp only [hexDigit?, Char.reduceToNat] at digit
    split at digit
    · cases digit
      left
      rw [if_pos (by omega)]
      omega
    · split at digit
      · cases digit
        left
        rw [if_neg (by omega)]
        omega
      · split at digit
        · cases digit
          right
          rw [if_neg (by omega)]
          omega
        · cases digit
  · rintro ⟨small, rfl | rfl⟩
    · exact hexDigit?_digitChar small
    · interval_cases d <;> rfl

end Text

/-! ### Literals -/

namespace Source

/-- Tells whether a token is a text, with a line feed behind it or without. -/
def Carries (token cs : List Char) : Prop :=
  token = cs ∨ token = cs ++ ['\n']

lemma carries_dropFinalNewline (token : List Char) : Carries token (dropFinalNewline token) := by
  unfold dropFinalNewline
  split
  · next last => exact .inr (List.dropLast_append_getLast? _ last).symm
  · exact .inl rfl

/-- A text that has no line feed itself is found in a token. -/
lemma Carries.dropFinalNewline_eq {token cs : List Char} (carries : Carries token cs)
    (plain : '\n' ∉ cs) : dropFinalNewline token = cs := by
  rcases carries with rfl | rfl
  · exact Source.dropFinalNewline_eq plain
  · rw [dropFinalNewline, if_pos List.getLast?_concat, List.dropLast_concat]

/-- The digits of a hexadecimal literal. -/
def HexLiteral (cs : List Char) (ds : List Nat) : Prop :=
  ∃ digits, cs = '0' :: 'x' :: digits ∧ digits ≠ [] ∧ List.Forall₂ Text.HexDigit digits ds

/-- The digits of a decimal literal. -/
def DecimalLiteral (cs : List Char) (ds : List Nat) : Prop :=
  cs ≠ [] ∧ List.Forall₂ Text.DecimalDigit cs ds

/-- Relates a token to what it is read as: the value of a hexadecimal literal, the value of a
decimal literal with at most 4300 digits, a failure that tells the number of digits if there are
more, and nothing if the token is no literal. A line feed at its end does not count. -/
inductive ReadsInteger (token : List Char) : Except Failure (Option Nat) → Prop
  | hex {cs : List Char} {ds : List Nat} (text : Carries token cs) (literal : HexLiteral cs ds) :
      ReadsInteger token (.ok (some (Text.placeValue 16 ds)))
  | decimal {cs : List Char} {ds : List Nat} (text : Carries token cs)
      (literal : DecimalLiteral cs ds) (short : ds.length ≤ 4300) :
      ReadsInteger token (.ok (some (Text.placeValue 10 ds)))
  | long {cs : List Char} {ds : List Nat} (text : Carries token cs)
      (literal : DecimalLiteral cs ds) (long : 4300 < ds.length) :
      ReadsInteger token (.error (.longLiteral ds.length))
  | other (neither : ∀ cs ds, Carries token cs → ¬HexLiteral cs ds ∧ ¬DecimalLiteral cs ds) :
      ReadsInteger token (.ok none)

lemma hexDigits?_eq_some_iff {cs : List Char} {ds : List Nat} :
    hexDigits? cs = some ds ↔ HexLiteral cs ds := by
  simp only [hexDigits?_eq_some, HexLiteral, Text.hexDigit?_eq_some]

lemma decimalDigits?_eq_some_iff {cs : List Char} {ds : List Nat} :
    decimalDigits? cs = some ds ↔ DecimalLiteral cs ds := by
  simp only [decimalDigits?, Text.digits?_eq_some, DecimalLiteral, Text.decimalDigit?_eq_some]

/-- There is no line feed in a literal. -/
lemma HexLiteral.dropFinalNewline_eq {token cs : List Char} {ds : List Nat}
    (literal : HexLiteral cs ds) (text : Carries token cs) : dropFinalNewline token = cs := by
  apply text.dropFinalNewline_eq
  obtain ⟨digits, rfl, _, each⟩ := literal
  simp only [List.mem_cons, Char.reduceEq, false_or]
  exact Text.not_mem_of_digits rfl (each.imp fun _ _ => Text.hexDigit?_eq_some.2)

lemma DecimalLiteral.dropFinalNewline_eq {token cs : List Char} {ds : List Nat}
    (literal : DecimalLiteral cs ds) (text : Carries token cs) : dropFinalNewline token = cs := by
  apply text.dropFinalNewline_eq
  have digits := literal.2.imp fun _ _ => Text.decimalDigit?_eq_some.2
  exact Text.not_mem_of_digits (Text.decimalDigit?_eq_none (by decide)) digits

lemma DecimalLiteral.hexDigits?_eq_none {cs : List Char} {ds : List Nat}
    (literal : DecimalLiteral cs ds) : hexDigits? cs = none :=
  hexDigits?_eq_none_of_decimal (literal.2.imp fun _ _ => Text.decimalDigit?_eq_some.2)

/-- Every token is read in one of the ways. -/
lemma readsInteger (token : List Char) : ReadsInteger token (integer? token) := by
  have text := carries_dropFinalNewline token
  simp only [integer?]
  split
  · next ds hex =>
    rw [Text.ofDigits_eq_placeValue]
    exact .hex text (hexDigits?_eq_some_iff.1 hex)
  · next noHex =>
    split
    · next ds decimal =>
      have literal := decimalDigits?_eq_some_iff.1 decimal
      split
      · next short =>
        rw [Text.ofDigits_eq_placeValue]
        exact .decimal text literal short
      · next long => exact .long text literal (Nat.lt_of_not_le long)
    · next noDecimal =>
      refine .other fun cs ds carries => ⟨?_, ?_⟩
      · intro literal
        rw [literal.dropFinalNewline_eq carries, hexDigits?_eq_some_iff.2 literal] at noHex
        cases noHex
      · intro literal
        rw [literal.dropFinalNewline_eq carries, decimalDigits?_eq_some_iff.2 literal] at noDecimal
        cases noDecimal

/-- A token is read in only one of the ways. -/
lemma ReadsInteger.eq {token : List Char} {r : Except Failure (Option Nat)}
    (reads : ReadsInteger token r) : integer? token = r := by
  cases reads with
  | hex text literal =>
    simp only [integer?, literal.dropFinalNewline_eq text, hexDigits?_eq_some_iff.2 literal,
      Text.ofDigits_eq_placeValue]
  | decimal text literal short =>
    simp only [integer?, literal.dropFinalNewline_eq text, literal.hexDigits?_eq_none,
      decimalDigits?_eq_some_iff.2 literal, Text.ofDigits_eq_placeValue]
    exact if_pos short
  | long text literal long =>
    simp only [integer?, literal.dropFinalNewline_eq text, literal.hexDigits?_eq_none,
      decimalDigits?_eq_some_iff.2 literal]
    exact if_neg (Nat.not_le.2 long)
  | other neither =>
    have text := carries_dropFinalNewline token
    apply integer?_eq_none
    · rw [Option.eq_none_iff_forall_ne_some]
      exact fun ds hex => (neither _ ds text).1 (hexDigits?_eq_some_iff.1 hex)
    · rw [Option.eq_none_iff_forall_ne_some]
      exact fun ds decimal => (neither _ ds text).2 (decimalDigits?_eq_some_iff.1 decimal)

/-! ### Numbers written as literals -/

/-- The digits of a number with zeros before them. -/
lemma exists_digits_zeros {base : Nat} (two : 1 < base) (n zeros : Nat) :
    ∃ ds, List.replicate zeros '0' ++ Nat.toDigits base n = ds.map Nat.digitChar ∧ ds ≠ [] ∧
      (∀ d ∈ ds, d < base) ∧ Text.placeValue base ds = n := by
  obtain ⟨ds, digits, bounded, value⟩ := Text.exists_digits two n
  refine ⟨List.replicate zeros 0 ++ ds, ?_, ?_, ?_, ?_⟩
  · rw [digits, List.map_append, List.map_replicate]
    rfl
  · rintro empty
    rw [(List.append_eq_nil_iff.1 empty).2] at digits
    exact Nat.toDigits_ne_nil digits
  · intro d mem
    rcases List.mem_append.1 mem with mem | mem
    · rw [List.eq_of_mem_replicate mem]
      omega
    · exact bounded d mem
  · rw [← Text.ofDigits_eq_placeValue, Text.ofDigits_zeros, value]

lemma decimalLiteral_digits {ds : List Nat} (nonempty : ds ≠ []) (bounded : ∀ d ∈ ds, d < 10) :
    DecimalLiteral (ds.map Nat.digitChar) ds := by
  refine ⟨fun empty => nonempty (List.map_eq_nil_iff.1 empty), ?_⟩
  rw [List.forall₂_map_left_iff, List.forall₂_same]
  intro d mem
  exact ⟨bounded d mem, 0x30, by decide, Nat.toNat_digitChar_of_lt_ten (bounded d mem)⟩

/-- The letters among hexadecimal digits may be small or capital. -/
lemma hexLiteral_digits {ds : List Nat} (nonempty : ds ≠ []) (bounded : ∀ d ∈ ds, d < 16) :
    HexLiteral ('0' :: 'x' :: ds.map Nat.digitChar) ds ∧
      HexLiteral ('0' :: 'x' :: (ds.map Nat.digitChar).map Char.toUpper) ds := by
  have written {cs : List Char} (digits : List.Forall₂ Text.HexDigit cs ds) :
      HexLiteral ('0' :: 'x' :: cs) ds := by
    refine ⟨cs, rfl, ?_, digits⟩
    rintro rfl
    exact nonempty (List.forall₂_nil_left_iff.1 digits)
  constructor
  · apply written
    rw [List.forall₂_map_left_iff, List.forall₂_same]
    exact fun d mem => ⟨bounded d mem, .inl rfl⟩
  · apply written
    rw [List.map_map, List.forall₂_map_left_iff, List.forall₂_same]
    exact fun d mem => ⟨bounded d mem, .inr rfl⟩

/-- An integer literal has the value of its digits by their places. Every token is read in exactly
one way, and the digits of a number, with any zeros before them, give the number back, if in decimal
there are not too many of them. -/
theorem integer?_iff_readsInteger :
    (∀ token r, integer? token = r ↔ ReadsInteger token r) ∧
      ∀ n zeros : Nat,
        (zeros + (Nat.toDigits 10 n).length ≤ 4300 →
          integer? (List.replicate zeros '0' ++ Nat.toDigits 10 n) = .ok (some n)) ∧
        integer? ('0' :: 'x' :: (List.replicate zeros '0' ++ Nat.toDigits 16 n)) =
          .ok (some n) ∧
        integer? ('0' :: 'x' :: (List.replicate zeros '0' ++ Nat.toDigits 16 n).map Char.toUpper) =
          .ok (some n) := by
  refine ⟨?_, ?_⟩
  · intro token r
    constructor
    · rintro rfl
      exact readsInteger token
    · exact ReadsInteger.eq
  · intro n zeros
    refine ⟨?_, ?_⟩
    · intro short
      obtain ⟨ds, digits, nonempty, bounded, value⟩ :=
        exists_digits_zeros (by decide : 1 < 10) n zeros
      have count : ds.length = zeros + (Nat.toDigits 10 n).length := by
        rw [← List.length_map Nat.digitChar, ← digits, List.length_append, List.length_replicate]
      rw [digits, ← value]
      exact (ReadsInteger.decimal (.inl rfl) (decimalLiteral_digits nonempty bounded)
        (by omega)).eq
    · obtain ⟨ds, digits, nonempty, bounded, value⟩ :=
        exists_digits_zeros (by decide : 1 < 16) n zeros
      obtain ⟨small, capital⟩ := hexLiteral_digits nonempty bounded
      rw [digits, ← value]
      exact ⟨(ReadsInteger.hex (.inl rfl) small).eq, (ReadsInteger.hex (.inl rfl) capital).eq⟩

/-- Digits of three scripts before a line feed, a number with zeros before it, and hexadecimal
digits with a letter behind them that is none. -/
theorem integer?_iff_readsInteger_mixed :
    ReadsInteger "1٢３\n".toList (.ok (some 123)) ∧
      3 + (Nat.toDigits 10 31).length ≤ 4300 ∧
      integer? (List.replicate 3 '0' ++ Nat.toDigits 10 31) = .ok (some 31) ∧
      ReadsInteger "0xfFg".toList (.ok none) := by
  obtain ⟨reads, back⟩ := integer?_iff_readsInteger
  have mixed : integer? "1٢３\n".toList = .ok (some 123) := toOption_eq_some.1 (by decide +kernel)
  have other : integer? "0xfFg".toList = .ok none := toOption_eq_some.1 (by decide +kernel)
  have short : 3 + (Nat.toDigits 10 31).length ≤ 4300 := by decide +kernel
  exact ⟨(reads _ _).1 mixed, short, (back 31 3).1 short, (reads _ _).1 other⟩

end Source

end Dcpu
