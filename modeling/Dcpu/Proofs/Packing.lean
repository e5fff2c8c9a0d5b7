import Dcpu.Proofs.Words

/-!
# The bits of an instruction word

The fields of a word are found by shifts and masks, and a word is the bitwise or of its shifted
fields. The definitions say the same with remainders and sums. On integers without bound, of which a
negative one stands for its two's complement, a mask of the lowest bits gives a remainder
(`land_mask`), and the or of two parts that do not overlap is their sum (`lor_shiftLeft`). So a word
has the bits of its fields (`Fields.word_eq_lor`), and a field has bits of its word
(`Fields.ofWord_eq_land`). Packing is the inverse of taking the fields of a word, up to the bits
above the lowest sixteen.
-/

namespace Dcpu

/-- The lowest bits of an integer are its remainder. -/
lemma land_mask (w : Int) (n : Nat) : Int.land w (2 ^ n - 1 : Nat) = w % (2 ^ n : Nat) := by
  cases w with
  | ofNat m =>
    show ((m &&& (2 ^ n - 1) : Nat) : Int) = (m : Int) % (2 ^ n : Nat)
    rw [Nat.and_two_pow_sub_one_eq_mod, Int.natCast_emod]
  | negSucc m =>
    -- The bits of a negative integer are those that the natural number `m` does not have.
    have below : m % 2 ^ n < 2 ^ n := Nat.mod_lt _ (Nat.two_pow_pos n)
    have bits : Nat.ldiff (2 ^ n - 1) m = 2 ^ n - (m % 2 ^ n + 1) := by
      apply Nat.eq_of_testBit_eq
      intro i
      rw [Nat.testBit_ldiff, Nat.testBit_two_pow_sub_one, Nat.testBit_two_pow_sub_succ below,
        Nat.testBit_mod_two_pow]
      cases decide (i < n) <;> rfl
    show (Nat.ldiff (2 ^ n - 1) m : Int) = Int.negSucc m % (2 ^ n : Nat)
    rw [bits, Int.negSucc_emod m (Int.natCast_pos.2 (Nat.two_pow_pos n)), ← Int.natCast_emod]
    omega

/-- A part and another that is shifted behind it do not overlap. -/
lemma lor_shiftLeft {low high : Int} {n : Nat} (nonneg : 0 ≤ low) (small : low < (2 ^ n : Nat))
    (behind : 0 ≤ high) : Int.lor low (high <<< n) = low + (2 ^ n : Nat) * high := by
  obtain ⟨l, rfl⟩ := Int.eq_ofNat_of_zero_le nonneg
  obtain ⟨h, rfl⟩ := Int.eq_ofNat_of_zero_le behind
  have parts : l ||| h <<< n = l + 2 ^ n * h := by
    rw [Nat.or_comm, ← Nat.shiftLeft_add_eq_or_of_lt (Int.ofNat_lt.1 small), Nat.shiftLeft_eq,
      Nat.mul_comm, Nat.add_comm]
  rw [← Int.natCast_shiftLeft]
  show ((l ||| h <<< n : Nat) : Int) = _
  rw [parts, Int.natCast_add, Int.natCast_mul]

namespace Fields

/-- A word is the or of its fields, each at its place. -/
lemma word_eq_lor {f : Fields} (fits : f.Fits) :
    f.word = Int.lor (Int.lor f.opcode (f.a <<< (4 : Nat))) (f.b <<< (10 : Nat)) := by
  obtain ⟨⟨_, _⟩, ⟨_, _⟩, ⟨_, _⟩⟩ := fits
  have low : Int.lor f.opcode (f.a <<< (4 : Nat)) = f.opcode + 0x10 * f.a :=
    lor_shiftLeft (by omega) (by omega) (by omega)
  rw [low, lor_shiftLeft (by omega) (by omega) (by omega)]
  rfl

/-- A field is found by a shift to its place and a mask of its width. -/
lemma ofWord_eq_land (w : Int) :
    ofWord w = {
      opcode := Int.land w 0xf
      a := Int.land (w >>> (4 : Nat)) 0x3f
      b := Int.land (w >>> (10 : Nat)) 0x3f } := by
  rw [Int.shiftRight_eq_div_pow, Int.shiftRight_eq_div_pow]
  have four (x : Int) : Int.land x 0xf = x % 0x10 := land_mask x 4
  have six (x : Int) : Int.land x 0x3f = x % 0x40 := land_mask x 6
  rw [four, six, six]
  rfl

/-- Fields are packed exactly if they fit, into a word that has their bits and gives them back.
Every integer, negative or of any size, has fields that fit, and they are packed into its
remainder. -/
theorem pack_inverts_ofWord (f : Fields) (w : Int) :
    ((∃ word, f.pack = .ok word) ↔ f.Fits) ∧
      (∀ word, f.pack = .ok word → IsWord word ∧ ofWord word = f ∧
        word = Int.lor (Int.lor f.opcode (f.a <<< (4 : Nat))) (f.b <<< (10 : Nat))) ∧
      ofWord w = {
        opcode := Int.land w 0xf
        a := Int.land (w >>> (4 : Nat)) 0x3f
        b := Int.land (w >>> (10 : Nat)) 0x3f } ∧
      (ofWord w).Fits ∧ (ofWord w).pack = .ok (w % 0x10000) := by
  refine ⟨⟨?_, ?_⟩, ?_, ofWord_eq_land w, fits_ofWord w, ?_⟩
  · rintro ⟨word, packed⟩
    exact (pack_eq_ok_iff.1 packed).1
  · intro fits
    exact ⟨f.word, pack_of_fits fits⟩
  · intro word packed
    obtain ⟨fits, rfl⟩ := pack_eq_ok_iff.1 packed
    exact ⟨isWord_word fits, ofWord_word fits, word_eq_lor fits⟩
  · rw [pack_of_fits (fits_ofWord w), word_ofWord_eq_emod]

/-- The largest fields fill a word, and they are the fields of minus one. -/
theorem pack_inverts_ofWord_full :
    let full : Fields := ⟨15, 63, 63⟩
    full.pack = .ok 0xffff ∧ ofWord 0xffff = full ∧ ofWord (-1) = full ∧
      (ofWord (-1)).pack = .ok 0xffff := by
  intro full
  obtain ⟨_, readBack, _, _, packed⟩ := pack_inverts_ofWord full (-1)
  have ok : full.pack = .ok 0xffff := rfl
  exact ⟨ok, (readBack _ ok).2.1, rfl, packed⟩

end Fields

end Dcpu
