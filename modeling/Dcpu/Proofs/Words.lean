import Dcpu.Proofs.Resolution

/-!
# Words and octets

The two ways between words and what is written: the fields of an instruction word are read back from
it (`Fields.ofWord_word`) and the word is made again of them (`Fields.word_ofWord`), and a stream of
words is read back from its octets (`bytesToWords_flatMap_octets`). A stream has octets exactly if
all its values are words (`wordsToBytes_eq_ok`), and otherwise the first value that is none is to
blame (`wordsToBytes_eq_error`).
-/

namespace Dcpu
open Results

/-- The fields of an instruction word are those of which it was made. -/
lemma Fields.ofWord_word {f : Fields} (fits : f.Fits) : ofWord f.word = f := by
  obtain ⟨opcode, a, b⟩ := f
  simp only [Fits] at fits
  simp only [ofWord, word, Fields.mk.injEq]
  omega

/-- The fields of an integer make the word of its lowest sixteen bits. -/
lemma Fields.word_ofWord_eq_emod (w : Int) : (ofWord w).word = w % 0x10000 := by
  simp only [word, ofWord]
  omega

lemma Fields.word_ofWord {w : Int} (isWord : IsWord w) : (ofWord w).word = w := by
  rw [word_ofWord_eq_emod]
  exact Int.emod_eq_of_lt isWord.1 (Int.lt_add_one_of_le isWord.2)

lemma Fields.isWord_word {f : Fields} (fits : f.Fits) : IsWord f.word := by
  simp only [Fits] at fits
  simp only [IsWord, word]
  omega

lemma checkWord_eq_ok {value word : Int} {location : Location} :
    checkWord value location = .ok word ↔ IsWord value ∧ word = value := by
  unfold checkWord
  split
  · next h => exact ⟨fun e => by cases e; exact ⟨h, rfl⟩, fun e => by rw [e.2]⟩
  · next h => exact ⟨nofun, fun e => absurd e.1 h⟩

lemma checkWord_eq_error {value : Int} {location : Location} {f : Failure} :
    checkWord value location = .error f ↔ ¬IsWord value ∧ f = .valueRange value location := by
  by_cases word : IsWord value
  · rw [checkWord, if_pos word]
    exact ⟨(fun h => by cases h), fun h => absurd word h.1⟩
  · rw [checkWord, if_neg word, Except.error.injEq]
    exact ⟨fun h => ⟨word, h.symm⟩, fun h => h.2.symm⟩

/-- A value can be written exactly if it has no more decimal digits than the limit allows. -/
lemma Text.isWritable_iff {value : Int} :
    isWritable value = true ↔ (Nat.digits 10 value.natAbs).length ≤ digitLimit := by
  unfold isWritable
  -- With a variable for the limit the power is not evaluated.
  generalize digitLimit = limit
  rw [Nat.digits_length_le_iff (by omega)]
  exact decide_eq_true_iff

/-- A stream has octets exactly if all its values are words. -/
lemma wordsToBytes_eq_ok {words : List Int} {bytes : List UInt8} :
    wordsToBytes words = .ok bytes ↔ (∀ w ∈ words, IsWord w) ∧ bytes = words.flatMap octets := by
  have checked {ws : List Int} : (words.mapM fun word => checkWord word) = .ok ws ↔
      (∀ w ∈ words, IsWord w) ∧ ws = words := by
    simp only [mapM_eq_ok, checkWord_eq_ok]
    rw [List.forall₂_and_left]
    refine and_congr Iff.rfl ⟨fun same => ?_, fun same => ?_⟩
    · induction same with
      | nil => rfl
      | cons first _ ih => rw [first, ih]
    · rw [same, List.forall₂_same]
      exact fun _ _ => rfl
  simp only [wordsToBytes, bind_eq_ok, checked]
  constructor
  · rintro ⟨_, ⟨all, rfl⟩, h⟩
    cases h
    exact ⟨all, rfl⟩
  · rintro ⟨all, rfl⟩
    exact ⟨words, ⟨all, rfl⟩, rfl⟩

/-- A stream that has no octets has a value that is no word, and the failure names the first one. -/
lemma wordsToBytes_eq_error {words : List Int} {f : Failure} :
    wordsToBytes words = .error f ↔
      ∃ value, words.find? (¬IsWord ·) = some value ∧ f = .valueRange value := by
  have checked {ws vs : List Int} (ok : (ws.mapM fun word => checkWord word) = .ok vs) :
      ∀ w ∈ ws, IsWord w := by
    intro w mem
    obtain ⟨_, _, word⟩ := exists_of_mem_left (mapM_eq_ok.1 ok) mem
    exact (checkWord_eq_ok.1 word).1
  simp only [wordsToBytes, bind_eq_error, mapM_eq_error, List.find?_eq_some_iff_append]
  constructor
  · rintro (⟨before, value, after, vs, rfl, ok, err⟩ | ⟨_, _, h⟩)
    · obtain ⟨other, e⟩ := checkWord_eq_error.1 err
      exact ⟨value, ⟨decide_eq_true other, before, after, rfl, by simpa using checked ok⟩, e⟩
    · cases h
  · rintro ⟨value, ⟨other, before, after, rfl, earlier⟩, e⟩
    refine .inl ⟨before, value, after, before, rfl, ?_, ?_⟩
    · rw [mapM_eq_ok, List.forall₂_same]
      exact fun w mem => checkWord_eq_ok.2 ⟨by simpa using earlier w mem, rfl⟩
    · exact checkWord_eq_error.2 ⟨of_decide_eq_true other, e⟩

/-- A word is put together from its octets. -/
lemma exists_octets {word : Int} (isWord : IsWord word) :
    ∃ high low : UInt8, octets word = [high, low] ∧
      word = (high.toNat * 0x100 + low.toNat : Nat) := by
  obtain ⟨nonneg, le⟩ := isWord
  refine ⟨_, _, rfl, ?_⟩
  rw [UInt8.toNat_ofNat', UInt8.toNat_ofNat']
  omega

/-- The octets of words are joined to the words. -/
lemma joinOctets_flatMap_octets {words : List Int} (all : ∀ w ∈ words, IsWord w) (done : List Int) :
    joinOctets done (words.flatMap octets) = done.reverse ++ words := by
  induction words generalizing done with
  | nil => simp [joinOctets]
  | cons w words ih =>
    obtain ⟨first, others⟩ := List.forall_mem_cons.1 all
    obtain ⟨high, low, split, value⟩ := exists_octets first
    rw [List.flatMap_cons, split, List.cons_append, List.cons_append, List.nil_append, joinOctets,
      ← value, ih others, List.reverse_cons, List.append_assoc, List.singleton_append]

/-- Words are read back from their octets. -/
lemma bytesToWords_flatMap_octets {words : List Int} (all : ∀ w ∈ words, IsWord w) :
    bytesToWords (words.flatMap octets) = .ok words := by
  have length : (words.flatMap octets).length = 2 * words.length := by
    simp [List.length_flatMap, octets, Nat.mul_comm]
  have even : (words.flatMap octets).length % 2 = 0 := by omega
  rw [bytesToWords, if_pos even, joinOctets_flatMap_octets all]
  rfl

end Dcpu
