import Dcpu.Proofs.Words

/-!
# Octets in big-endian order

`BigEndian` relates words to octets, with one rule for a word and its two octets, of which the
higher one comes first. Both directions between words and octets meet this relation: words are
written as the octets that belong to them (`wordsToBytes_eq_ok_iff_bigEndian`), and octets are read
as the words to which they belong (`bytesToWords_eq_ok_iff_bigEndian`). So each direction is the
inverse of the other, and either fails only where there is nothing on the other side: a value that
is no word, or an octet that is left over.
-/

namespace Dcpu

/-- Relates words to their octets, the higher octet of each word first. -/
inductive BigEndian : List Int → List UInt8 → Prop
  | nil : BigEndian [] []
  | cons {high low : UInt8} {words : List Int} {bytes : List UInt8}
      (rest : BigEndian words bytes) :
      BigEndian ((high.toNat * 0x100 + low.toNat : Nat) :: words) (high :: low :: bytes)

lemma isWord_of_octets (high low : UInt8) : IsWord (high.toNat * 0x100 + low.toNat : Nat) := by
  have := high.toNat_lt
  have := low.toNat_lt
  show _ ∧ _
  omega

/-- The octets of a word are those from which it is put together. -/
lemma octets_join (high low : UInt8) :
    octets (high.toNat * 0x100 + low.toNat : Nat) = [high, low] := by
  have small := low.toNat_lt
  have first : (high.toNat * 0x100 + low.toNat) / 0x100 = high.toNat := by omega
  have second : (high.toNat * 0x100 + low.toNat) % 0x100 = low.toNat := by omega
  rw [octets, Int.toNat_natCast, first, second, UInt8.ofNat_toNat, UInt8.ofNat_toNat]

namespace BigEndian

variable {words : List Int} {bytes : List UInt8}

lemma isWord (related : BigEndian words bytes) : ∀ w ∈ words, IsWord w := by
  induction related with
  | nil => exact fun _ mem => absurd mem List.not_mem_nil
  | @cons high low _ _ _ ih => exact List.forall_mem_cons.2 ⟨isWord_of_octets high low, ih⟩

lemma length_bytes (related : BigEndian words bytes) : bytes.length = 2 * words.length := by
  induction related with
  | nil => rfl
  | cons _ ih =>
    simp only [List.length_cons, ih]
    omega

lemma flatMap_octets (related : BigEndian words bytes) : words.flatMap octets = bytes := by
  induction related with
  | nil => rfl
  | cons _ ih =>
    rw [List.flatMap_cons, octets_join, ih]
    rfl

/-- Words have octets. -/
lemma of_isWord (all : ∀ w ∈ words, IsWord w) : BigEndian words (words.flatMap octets) := by
  induction words with
  | nil => exact .nil
  | cons w words ih =>
    obtain ⟨first, others⟩ := List.forall_mem_cons.1 all
    obtain ⟨high, low, split, value⟩ := exists_octets first
    rw [List.flatMap_cons, split, value]
    exact .cons (ih others)

/-- Octets belong to words if none of them is left over. -/
lemma exists_of_even (bytes : List UInt8) (even : bytes.length % 2 = 0) :
    ∃ words, BigEndian words bytes := by
  induction bytes using List.twoStepInduction with
  | nil => exact ⟨[], .nil⟩
  | singleton octet => cases even
  | cons_cons high low bytes ih _ =>
    rw [List.length_cons, List.length_cons, Nat.add_assoc, Nat.add_mod_right] at even
    obtain ⟨words, related⟩ := ih even
    exact ⟨_, .cons related⟩

lemma append_iff {words others : List Int} {bytes : List UInt8} :
    BigEndian (words ++ others) bytes ↔
      ∃ front rest, bytes = front ++ rest ∧ BigEndian words front ∧ BigEndian others rest := by
  constructor
  · intro related
    induction words generalizing bytes with
    | nil => exact ⟨[], bytes, rfl, .nil, related⟩
    | cons w words ih =>
      cases related with
      | cons related =>
        obtain ⟨front, rest, rfl, first, second⟩ := ih related
        exact ⟨_ :: _ :: front, rest, rfl, .cons first, second⟩
  · rintro ⟨front, rest, rfl, first, second⟩
    induction first with
    | nil => exact second
    | cons _ ih => exact .cons ih

/-- The octets of joined blocks of words are the joined octets of the blocks. -/
lemma flatten_iff {blocks : List (List Int)} {bytes : List UInt8} :
    BigEndian blocks.flatten bytes ↔
      ∃ parts, List.Forall₂ BigEndian blocks parts ∧ bytes = parts.flatten := by
  induction blocks generalizing bytes with
  | nil =>
    constructor
    · intro related
      cases related
      exact ⟨[], .nil, rfl⟩
    · rintro ⟨parts, each, rfl⟩
      cases each
      exact .nil
  | cons block blocks ih =>
    rw [List.flatten_cons, append_iff]
    constructor
    · rintro ⟨front, rest, rfl, first, second⟩
      obtain ⟨parts, each, rfl⟩ := ih.1 second
      exact ⟨front :: parts, .cons first each, rfl⟩
    · rintro ⟨parts, each, rfl⟩
      cases each with
      | @cons _ front _ parts first each =>
        exact ⟨front, parts.flatten, rfl, first, ih.2 ⟨parts, each, rfl⟩⟩

end BigEndian

/-- Words are written as the octets that belong to them. -/
lemma wordsToBytes_eq_ok_iff_bigEndian {words : List Int} {bytes : List UInt8} :
    wordsToBytes words = .ok bytes ↔ BigEndian words bytes := by
  rw [wordsToBytes_eq_ok]
  constructor
  · rintro ⟨all, rfl⟩
    exact .of_isWord all
  · intro related
    exact ⟨related.isWord, related.flatMap_octets.symm⟩

/-- Octets are read as the words to which they belong. -/
lemma bytesToWords_eq_ok_iff_bigEndian {words : List Int} {bytes : List UInt8} :
    bytesToWords bytes = .ok words ↔ BigEndian words bytes := by
  have reads {ws : List Int} (related : BigEndian ws bytes) : bytesToWords bytes = .ok ws := by
    have read := bytesToWords_flatMap_octets related.isWord
    rwa [related.flatMap_octets] at read
  constructor
  · intro read
    have even : bytes.length % 2 = 0 := by
      by_contra odd
      rw [bytesToWords, if_neg odd] at read
      cases read
    obtain ⟨ws, related⟩ := BigEndian.exists_of_even bytes even
    rw [reads related] at read
    cases read
    exact related
  · exact reads

/-- A value that is no word is named in the failure if it has at most 4300 decimal digits. -/
lemma Failure.valueRange_eq_ite (value : Int) :
    valueRange value = if (Nat.digits 10 value.natAbs).length ≤ 4300 then
      .diagnostic { fault := .valueRange value } else .longValue := by
  have writable : Text.isWritable value = true ↔ (Nat.digits 10 value.natAbs).length ≤ 4300 :=
    Text.isWritable_iff
  show (if Text.isWritable value = true then _ else _) = _
  simp only [writable]

/-- Writing words as octets and reading octets as words are inverse to each other, in big-endian
order. Exactly the lists of words can be written, and otherwise the failure names the first value
that is none, unless it has too many digits. Exactly the lists of an even number of octets can be
read, and what is read are words. -/
theorem wordsToBytes_iff_bytesToWords (words : List Int) (bytes : List UInt8) :
    (wordsToBytes words = .ok bytes ↔ bytesToWords bytes = .ok words) ∧
      (wordsToBytes words = .ok bytes ↔ BigEndian words bytes) ∧
      ((∃ bytes, wordsToBytes words = .ok bytes) ↔ ∀ w ∈ words, IsWord w) ∧
      (∀ f, wordsToBytes words = .error f ↔
        ∃ value, words.find? (¬IsWord ·) = some value ∧
          f = if (Nat.digits 10 value.natAbs).length ≤ 4300 then
            .diagnostic { fault := .valueRange value } else .longValue) ∧
      (wordsToBytes words = .ok bytes → bytes.length = 2 * words.length) ∧
      ((∃ words, bytesToWords bytes = .ok words) ↔ bytes.length % 2 = 0) ∧
      (bytesToWords bytes = .ok words → ∀ w ∈ words, IsWord w) := by
  simp only [wordsToBytes_eq_ok_iff_bigEndian, bytesToWords_eq_ok_iff_bigEndian,
    wordsToBytes_eq_error, Failure.valueRange_eq_ite, implies_true, true_and]
  refine ⟨⟨?_, ?_⟩, (·.length_bytes), ⟨?_, ?_⟩, (·.isWord)⟩
  · rintro ⟨bytes, related⟩
    exact related.isWord
  · intro all
    exact ⟨_, .of_isWord all⟩
  · rintro ⟨words, related⟩
    rw [related.length_bytes, Nat.mul_mod_right]
  · exact BigEndian.exists_of_even bytes

/-- The least and the greatest word, and the values next to them. -/
theorem wordsToBytes_iff_bytesToWords_limits :
    let words : List Int := [0x0000, 0xffff, 0x7c01]
    let bytes : List UInt8 := [0x00, 0x00, 0xff, 0xff, 0x7c, 0x01]
    wordsToBytes words = .ok bytes ∧ bytesToWords bytes = .ok words ∧
      bytes.length = 2 * words.length ∧ (∀ w ∈ words, IsWord w) ∧
      wordsToBytes [0xffff, 0x10000, -1] =
        .error (.diagnostic { fault := .valueRange 0x10000 }) := by
  intro words bytes
  have ok : wordsToBytes words = .ok bytes := rfl
  obtain ⟨inverse, _, _, _, length, _, isWord⟩ := wordsToBytes_iff_bytesToWords words bytes
  obtain ⟨_, _, _, failure, _⟩ := wordsToBytes_iff_bytesToWords [0xffff, 0x10000, -1] []
  refine ⟨ok, inverse.1 ok, length ok, isWord (inverse.1 ok), (failure _).2 ?_⟩
  exact ⟨0x10000, by decide, by simp⟩

end Dcpu
