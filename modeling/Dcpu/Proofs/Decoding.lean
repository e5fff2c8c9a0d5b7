import Dcpu.Code.Decoding
import Dcpu.Proofs.Words

/-!
# Decoding a stream of words

The decoder takes an instruction word together with the words it asks for
(`decodeFrom_cons_append`) and stops where they are not all there (`decodeFrom_cons_of_lt`).

A decoded instruction stands for the words `Decoded.words`. It is valid if its fields fit and it has
as many trailing words as its fields ask for; then decoding its words gives it back and goes on
behind them (`decodeFrom_words_append`). So a list of valid instructions at consecutive addresses is
decoded to itself (`decodeFrom_flatMap_words`).
-/

namespace Dcpu

lemma Fields.trailingCount_le (f : Fields) : f.trailingCount ≤ 2 := by
  refine Nat.le_trans List.countP_le_length ?_
  unfold operands
  split <;> simp

namespace Decoded

/-- The words of an instruction. -/
def words (d : Decoded) : List Int :=
  d.fields.word :: d.trailing

/-- Tells whether the fields of an instruction fit and it has the trailing words they ask for. -/
def Valid (d : Decoded) : Prop :=
  d.fields.Fits ∧ d.trailing.length = d.fields.trailingCount

/-- Tells whether instructions stand one behind the other, the first of them at an address. -/
def Consecutive (address : Nat) : List Decoded → Prop
  | [] => True
  | d :: ds => d.address = address ∧ Consecutive (address + d.size) ds

end Decoded

namespace Decoding

/-- An instruction word with as many words behind it as it asks for is decoded to one instruction,
whatever stands behind them. -/
lemma decodeFrom_cons_append {word : Int} {trailing : List Int}
    (length : trailing.length = (Fields.ofWord word).trailingCount) (done : List Decoded)
    (address : Nat) (rest : List Int) :
    decodeFrom done address (word :: (trailing ++ rest)) =
      decodeFrom (⟨address, Fields.ofWord word, trailing⟩ :: done)
        (address + (1 + trailing.length)) rest := by
  have count := (Fields.ofWord word).trailingCount_le
  rw [decodeFrom.eq_def]
  simp only [← length] at count ⊢
  -- The decoder waits for none, one or two words, and each of these runs by computation.
  match trailing with
  | [] => rfl
  | [x] => rfl
  | [x, y] => rfl
  | _ :: _ :: _ :: _ =>
    simp only [List.length_cons] at count
    omega

/-- A stream that ends before all words are there that an instruction word asks for is cut off at
this instruction word. -/
lemma decodeFrom_cons_of_lt {word : Int} {rest : List Int}
    (short : rest.length < (Fields.ofWord word).trailingCount) (done : List Decoded)
    (address : Nat) :
    decodeFrom done address (word :: rest) =
      { items := done.reverse, truncated := some address } := by
  have count := (Fields.ofWord word).trailingCount_le
  rw [decodeFrom.eq_def]
  simp only
  generalize (Fields.ofWord word).trailingCount = n at short count
  match n, rest with
  | 1, [] => rfl
  | 2, [] => rfl
  | 2, [x] => rfl
  | 0, _ => cases short
  | 1, _ :: _ | 2, _ :: _ :: _ =>
    simp only [List.length_cons] at short
    omega
  | n + 3, _ => omega

/-- The words of a valid instruction are decoded to it, whatever stands behind them. -/
lemma decodeFrom_words_append {d : Decoded} (valid : d.Valid) (done : List Decoded)
    (rest : List Int) :
    decodeFrom done d.address (d.words ++ rest) =
      decodeFrom (d :: done) (d.address + d.size) rest := by
  obtain ⟨fits, length⟩ := valid
  have read : Fields.ofWord d.fields.word = d.fields := Fields.ofWord_word fits
  rw [← read] at length
  have next := decodeFrom_cons_append length done d.address rest
  rw [read] at next
  exact next

/-- Valid instructions at consecutive addresses are decoded to themselves. -/
lemma decodeFrom_flatMap_words {ds : List Decoded} {address : Nat}
    (consecutive : Decoded.Consecutive address ds) (valid : ∀ d ∈ ds, d.Valid)
    (done : List Decoded) (rest : List Int) :
    decodeFrom done address (ds.flatMap Decoded.words ++ rest) =
      decodeFrom (ds.reverse ++ done) (address + (ds.map Decoded.size).sum) rest := by
  induction ds generalizing address done with
  | nil => rfl
  | cons d ds ih =>
    obtain ⟨rfl, consecutive⟩ := consecutive
    rw [List.flatMap_cons, List.append_assoc,
      decodeFrom_words_append (valid d List.mem_cons_self),
      ih consecutive fun x mem => valid x (List.mem_cons_of_mem _ mem)]
    simp [Nat.add_assoc]

/-- A stream that consists of the words of valid instructions is decoded to its end. -/
lemma ofWords_flatMap_words {ds : List Decoded} (consecutive : Decoded.Consecutive 0 ds)
    (valid : ∀ d ∈ ds, d.Valid) : ofWords (ds.flatMap Decoded.words) = { items := ds } := by
  have decoded := decodeFrom_flatMap_words consecutive valid [] []
  rw [List.append_nil, List.append_nil] at decoded
  rw [ofWords, decoded, decodeFrom, List.reverse_reverse]

end Decoding

end Dcpu
