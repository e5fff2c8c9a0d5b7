import Dcpu.Proofs.Decoding

/-!
# Streams of words

`Reads` says what a stream of words holds from an address on, one rule for each way in which a
stream can go on: it is at its end, an instruction with all its words comes next, or it ends inside
an instruction. Every stream is read in exactly one way, which is how it is decoded
(`ofWords_eq_iff_reads`).

Decoding loses nothing and is unique: the decoded instructions of a stream that is complete are the
only instructions, one behind the other, whose words make up the stream (`ofWords_eq_iff_isParse`).
It goes through a stream part by part, and a stream that is cut off lacks one or two words and
nothing else (`ofWords_append_or_cutOff`).
-/

namespace Dcpu
open Results

/-! ### Reading a stream -/

/-- An instruction at an address that is larger by a number. -/
def Decoded.moved (n : Nat) (d : Decoded) : Decoded :=
  { d with address := d.address + n }

namespace Decoding

/-- Relates the words from an address on to the instructions that are read from them, and to the
address of an instruction that is cut off. -/
inductive Reads : Nat → List Int → List Decoded → Option Nat → Prop
  | done {address : Nat} : Reads address [] [] none
  | next {address : Nat} {word : Int} {trailing rest : List Int} {items : List Decoded}
      {truncated : Option Nat} (length : trailing.length = (Fields.ofWord word).trailingCount)
      (behind : Reads (address + (1 + trailing.length)) rest items truncated) :
      Reads address (word :: (trailing ++ rest)) (⟨address, Fields.ofWord word, trailing⟩ :: items)
        truncated
  | cutOff {address : Nat} {word : Int} {rest : List Int}
      (short : rest.length < (Fields.ofWord word).trailingCount) :
      Reads address (word :: rest) [] (some address)

namespace Reads

variable {address : Nat} {words others : List Int} {items more : List Decoded}
  {truncated : Option Nat}

/-- What is read from a stream is what it is decoded to. -/
lemma decodeFrom_eq (reads : Reads address words items truncated) (done : List Decoded) :
    decodeFrom done address words = { items := done.reverse ++ items, truncated } := by
  induction reads generalizing done with
  | done => rw [decodeFrom, List.append_nil]
  | next length _ ih =>
    rw [decodeFrom_cons_append length, ih, List.reverse_cons, List.append_assoc]
    rfl
  | cutOff short => rw [decodeFrom_cons_of_lt short, List.append_nil]

/-- Every stream can be read. -/
lemma exist (address : Nat) (words : List Int) :
    ∃ items truncated, Reads address words items truncated := by
  -- A step takes a word and those that belong to it, so the induction is on the number of words.
  induction size : words.length using Nat.strong_induction_on generalizing address words with
  | _ count ih =>
    cases words with
    | nil => exact ⟨[], none, .done⟩
    | cons word rest =>
      rcases Nat.lt_or_ge rest.length (Fields.ofWord word).trailingCount with short | enough
      · exact ⟨[], some address, .cutOff short⟩
      · obtain ⟨trailing, behind, rfl, length⟩ : ∃ trailing behind, rest = trailing ++ behind ∧
            trailing.length = (Fields.ofWord word).trailingCount :=
          ⟨_, _, (List.take_append_drop _ rest).symm, List.length_take_of_le enough⟩
        have fewer : behind.length < count := by
          rw [← size, List.length_cons, List.length_append]
          omega
        obtain ⟨items, truncated, reads⟩ := ih _ fewer (address + (1 + trailing.length)) behind rfl
        exact ⟨_, truncated, next length reads⟩

/-- A stream that is read to its end can be followed by another one. -/
lemma append (reads : Reads address words items none)
    (behind : Reads (address + words.length) others more truncated) :
    Reads address (words ++ others) (items ++ more) truncated := by
  generalize complete : (none : Option Nat) = end? at reads
  induction reads with
  | done => exact behind
  | @next address word trailing rest items _ length _ ih =>
    rw [List.cons_append, List.append_assoc]
    apply next length
    apply ih _ complete
    rw [List.length_cons, List.length_append] at behind
    have address_eq : address + (1 + trailing.length) + rest.length =
        address + (trailing.length + rest.length + 1) := by omega
    rw [address_eq]
    exact behind
  | cutOff short => cases complete

/-- One instruction with all its words is a stream. -/
lemma single {word : Int} {trailing : List Int}
    (length : trailing.length = (Fields.ofWord word).trailingCount) :
    Reads address (word :: trailing) [⟨address, Fields.ofWord word, trailing⟩] none := by
  have reads : Reads address (word :: (trailing ++ [])) _ none := next length .done
  rw [List.append_nil] at reads
  exact reads

/-- A stream is read in the same way at another address. -/
lemma moved (reads : Reads address words items truncated) (n : Nat) :
    Reads (address + n) words (items.map (Decoded.moved n)) (truncated.map (· + n)) := by
  induction reads with
  | done => exact .done
  | next length _ ih =>
    apply next length
    rw [Nat.add_right_comm]
    exact ih
  | cutOff short => exact .cutOff short

/-- A stream that is cut off consists of a stream that is not and of an instruction word with too
few words behind it. -/
lemma exists_of_some {cut : Nat} (reads : Reads address words items (some cut)) :
    ∃ before word rest, words = before ++ word :: rest ∧ Reads address before items none ∧
      cut = address + before.length ∧ rest.length < (Fields.ofWord word).trailingCount := by
  generalize incomplete : some cut = end? at reads
  induction reads with
  | done => cases incomplete
  | @next address word trailing rest items _ length _ ih =>
    obtain ⟨before, last, behind, rfl, reads, rfl, short⟩ := ih incomplete
    refine ⟨word :: (trailing ++ before), last, behind, ?_, next length reads, ?_, short⟩
    · rw [List.cons_append, List.append_assoc]
    · rw [List.length_cons, List.length_append]
      omega
  | @cutOff address word rest short =>
    cases incomplete
    exact ⟨[], word, rest, rfl, .done, rfl, short⟩

end Reads

/-- A stream is decoded to what is read from it. -/
lemma ofWords_eq_iff_reads {words : List Int} {items : List Decoded} {truncated : Option Nat} :
    ofWords words = { items, truncated } ↔ Reads 0 words items truncated := by
  constructor
  · intro decoded
    obtain ⟨items', truncated', reads⟩ := Reads.exist 0 words
    have same := reads.decodeFrom_eq []
    rw [← ofWords, decoded] at same
    cases same
    exact reads
  · exact fun reads => reads.decodeFrom_eq []

lemma reads_ofWords (words : List Int) :
    Reads 0 words (ofWords words).items (ofWords words).truncated :=
  ofWords_eq_iff_reads.1 rfl

end Decoding

/-! ### Decoding as a parse -/

namespace Decoded

/-- The words of an instruction, the instruction word packed from its fields. -/
def encode (d : Decoded) : Except Failure (List Int) :=
  d.fields.pack.map (· :: d.trailing)

/-- The words of instructions one after the other. -/
def stream (ds : List Decoded) : Except Failure (List Int) :=
  (ds.mapM encode).map List.flatten

/-- An instruction whose fields fit and that has a word for every operand that takes one. Operand A
is an operand unless the opcode is 0. -/
structure Whole (d : Decoded) : Prop where
  fits : d.fields.Fits
  words : ∀ w ∈ d.trailing, IsWord w
  length : d.trailing.length =
    (if d.fields.opcode = 0 then [d.fields.b] else [d.fields.a, d.fields.b]).countP
      OperandCode.needsNextWord

/-- Instructions put one behind the other, the first of them at an address. -/
def placedFrom (address : Nat) : List Decoded → List Decoded
  | [] => []
  | d :: ds => { d with address } :: placedFrom (address + d.size) ds

lemma encode_eq_ok {d : Decoded} {ws : List Int} :
    d.encode = .ok ws ↔ d.fields.Fits ∧ ws = d.words := by
  rw [encode, map_eq_ok]
  constructor
  · rintro ⟨word, packed, rfl⟩
    obtain ⟨fits, rfl⟩ := Fields.pack_eq_ok_iff.1 packed
    exact ⟨fits, rfl⟩
  · rintro ⟨fits, rfl⟩
    exact ⟨_, Fields.pack_of_fits fits, rfl⟩

/-- Instructions have words if the fields of all of them fit. -/
lemma stream_eq_ok {ds : List Decoded} {ws : List Int} :
    stream ds = .ok ws ↔ (∀ d ∈ ds, d.fields.Fits) ∧ ws = ds.flatMap words := by
  simp only [stream, map_eq_ok, mapM_eq_ok, encode_eq_ok]
  rw [List.flatMap_def]
  constructor
  · rintro ⟨blocks, each, rfl⟩
    obtain ⟨fits, same⟩ := (List.forall₂_and_left _ _).1 each
    have blocks_eq : blocks = ds.map words := by
      rw [← List.forall₂_eq_eq_eq, List.forall₂_map_right_iff]
      exact same.flip
    exact ⟨fits, by rw [blocks_eq]⟩
  · rintro ⟨fits, rfl⟩
    refine ⟨ds.map words, (List.forall₂_and_left _ _).2 ⟨fits, ?_⟩, rfl⟩
    rw [List.forall₂_map_right_iff, List.forall₂_same]
    exact fun _ _ => rfl

lemma Whole.valid {d : Decoded} (whole : d.Whole) : d.Valid :=
  ⟨whole.fits, whole.length⟩

lemma isWord_of_whole {ds : List Decoded} (whole : ∀ d ∈ ds, d.Whole) :
    ∀ w ∈ ds.flatMap words, IsWord w := by
  intro w mem
  obtain ⟨d, member, inside⟩ := List.mem_flatMap.1 mem
  have here := whole d member
  rcases List.mem_cons.1 inside with rfl | inside
  · exact Fields.isWord_word here.fits
  · exact here.words w inside

/-- Instructions are consecutive if each stands behind the words of those before it. -/
lemma consecutive_iff {address : Nat} {ds : List Decoded} :
    Consecutive address ds ↔
      ∀ n d, ds[n]? = some d → d.address = address + ((ds.take n).map size).sum := by
  induction ds generalizing address with
  | nil => exact ⟨fun _ _ _ found => (by cases found), fun _ => trivial⟩
  | cons d ds ih =>
    rw [Consecutive, ih]
    constructor
    · rintro ⟨rfl, behind⟩ n e found
      cases n with
      | zero =>
        cases found
        rfl
      | succ n =>
        rw [behind n e found, List.take_succ_cons, List.map_cons, List.sum_cons, Nat.add_assoc]
    · intro places
      refine ⟨places 0 d rfl, ?_⟩
      intro n e found
      rw [places (n + 1) e found, List.take_succ_cons, List.map_cons, List.sum_cons, Nat.add_assoc]

lemma consecutive_placedFrom (address : Nat) (ds : List Decoded) :
    Consecutive address (placedFrom address ds) := by
  induction ds generalizing address with
  | nil => exact trivial
  | cons d ds ih => exact ⟨rfl, ih (address + d.size)⟩

/-- The words of instructions do not depend on their places. -/
lemma flatMap_words_placedFrom (address : Nat) (ds : List Decoded) :
    (placedFrom address ds).flatMap words = ds.flatMap words := by
  induction ds generalizing address with
  | nil => rfl
  | cons d ds ih =>
    rw [placedFrom, List.flatMap_cons, List.flatMap_cons, ih]
    rfl

lemma whole_placedFrom {address : Nat} {ds : List Decoded} :
    (∀ d ∈ placedFrom address ds, d.Whole) ↔ ∀ d ∈ ds, d.Whole := by
  induction ds generalizing address with
  | nil => exact Iff.rfl
  | cons d ds ih =>
    rw [placedFrom, List.forall_mem_cons, List.forall_mem_cons, ih]
    refine and_congr ⟨?_, ?_⟩ Iff.rfl
    · exact fun whole => ⟨whole.fits, whole.words, whole.length⟩
    · exact fun whole => ⟨whole.fits, whole.words, whole.length⟩

end Decoded

namespace Decoding

/-- Words that are read to their end are those of whole instructions one behind the other. -/
lemma Reads.whole {address : Nat} {words : List Int} {items : List Decoded}
    (reads : Reads address words items none) (all : ∀ w ∈ words, IsWord w) :
    Decoded.Consecutive address items ∧ (∀ d ∈ items, d.Whole) ∧
      items.flatMap Decoded.words = words := by
  generalize complete : (none : Option Nat) = end? at reads
  induction reads with
  | done => exact ⟨trivial, (fun _ mem => by cases mem), rfl⟩
  | @next address word trailing rest items _ length _ ih =>
    rw [List.forall_mem_cons, List.forall_mem_append] at all
    obtain ⟨isWord, trailingWords, others⟩ := all
    obtain ⟨consecutive, whole, behind⟩ := ih others complete
    refine ⟨⟨rfl, consecutive⟩, List.forall_mem_cons.2 ⟨?_, whole⟩, ?_⟩
    · exact ⟨Fields.fits_ofWord word, trailingWords, length⟩
    · rw [List.flatMap_cons, behind, Decoded.words, Fields.word_ofWord isWord]
      rfl
  | cutOff short => cases complete

/-- A parse of a stream: whole instructions, each at the sum of the sizes before it, whose words
make up the stream. -/
structure IsParse (words : List Int) (ds : List Decoded) : Prop where
  addresses : ∀ n d, ds[n]? = some d → d.address = ((ds.take n).map Decoded.size).sum
  whole : ∀ d ∈ ds, d.Whole
  stream : Decoded.stream ds = .ok words

lemma isParse_iff {words : List Int} {ds : List Decoded} :
    IsParse words ds ↔
      Decoded.Consecutive 0 ds ∧ (∀ d ∈ ds, d.Whole) ∧ ds.flatMap Decoded.words = words := by
  simp only [Decoded.consecutive_iff, Nat.zero_add]
  constructor
  · rintro ⟨addresses, whole, stream⟩
    exact ⟨addresses, whole, (Decoded.stream_eq_ok.1 stream).2.symm⟩
  · rintro ⟨addresses, whole, rfl⟩
    exact ⟨addresses, whole, Decoded.stream_eq_ok.2 ⟨fun d mem => (whole d mem).fits, rfl⟩⟩

/-- A stream of words is decoded to instructions exactly if these are a parse of it. Whole
instructions have a stream of words, which is decoded to them, one put behind the other. -/
theorem ofWords_eq_iff_isParse (words : List Int) (ds : List Decoded) :
    ((∀ w ∈ words, IsWord w) ∧ ofWords words = { items := ds, truncated := none } ↔
        IsParse words ds) ∧
      ((∃ stream, Decoded.stream ds = .ok stream ∧ (∀ w ∈ stream, IsWord w) ∧
          ofWords stream = { items := Decoded.placedFrom 0 ds, truncated := none }) ↔
        ∀ d ∈ ds, d.Whole) := by
  constructor
  · rw [isParse_iff]
    constructor
    · rintro ⟨all, decoded⟩
      exact (ofWords_eq_iff_reads.1 decoded).whole all
    · rintro ⟨consecutive, whole, rfl⟩
      refine ⟨Decoded.isWord_of_whole whole, ?_⟩
      exact ofWords_flatMap_words consecutive fun d mem => (whole d mem).valid
  · constructor
    · rintro ⟨stream, _, all, decoded⟩
      obtain ⟨_, whole, _⟩ := (ofWords_eq_iff_reads.1 decoded).whole all
      exact Decoded.whole_placedFrom.1 whole
    · intro whole
      have fits : ∀ d ∈ ds, d.fields.Fits := fun d mem => (whole d mem).fits
      refine ⟨_, Decoded.stream_eq_ok.2 ⟨fits, rfl⟩, Decoded.isWord_of_whole whole, ?_⟩
      rw [← Decoded.flatMap_words_placedFrom 0]
      apply ofWords_flatMap_words (Decoded.consecutive_placedFrom 0 ds)
      exact fun d mem => (Decoded.whole_placedFrom.2 whole d mem).valid

/-! ### Parts of a stream -/

/-- A stream that ends inside the instruction at an address: the words before the address are
decoded to the instructions that were found, and one or two words more, whatever they are, complete
the stream with one instruction more. -/
structure CutOff (words : List Int) (address : Nat) : Prop where
  inside : address < words.length
  before : ofWords (words.take address) = { items := (ofWords words).items, truncated := none }
  missing : ∃ k, (k = 1 ∨ k = 2) ∧ ∀ more : List Int, more.length = k →
    ∃ d, ofWords (words ++ more) = { items := (ofWords words).items ++ [d], truncated := none }

/-- What is decoded behind a complete stream is what is decoded on its own, at larger addresses. -/
lemma ofWords_append {words : List Int} (complete : (ofWords words).truncated = none)
    (others : List Int) :
    ofWords (words ++ others) =
      { items := (ofWords words).items ++ (ofWords others).items.map (Decoded.moved words.length)
        truncated := (ofWords others).truncated.map (· + words.length) } := by
  have first := reads_ofWords words
  rw [complete] at first
  have second := (reads_ofWords others).moved words.length
  exact ofWords_eq_iff_reads.2 (first.append second)

lemma cutOff_of_truncated {words : List Int} {address : Nat}
    (cut : (ofWords words).truncated = some address) : CutOff words address := by
  have reads := reads_ofWords words
  rw [cut] at reads
  generalize items_eq : (ofWords words).items = items at reads
  obtain ⟨before, word, rest, rfl, complete, rfl, short⟩ := reads.exists_of_some
  rw [Nat.zero_add]
  refine ⟨?_, ?_, ?_⟩
  · rw [List.length_append, List.length_cons]
    omega
  · rw [List.take_left, items_eq]
    exact ofWords_eq_iff_reads.2 complete
  · -- What is missing is what the instruction word asks for less the words that are there.
    have count := (Fields.ofWord word).trailingCount_le
    refine ⟨(Fields.ofWord word).trailingCount - rest.length, by omega, ?_⟩
    intro more length
    have enough : (rest ++ more).length = (Fields.ofWord word).trailingCount := by
      rw [List.length_append]
      omega
    refine ⟨⟨0 + before.length, Fields.ofWord word, rest ++ more⟩, ?_⟩
    rw [items_eq, List.append_assoc, ofWords_eq_iff_reads]
    exact complete.append (.single enough)

/-- A complete stream can be followed by any other, which is decoded as on its own, and a stream
that is not complete is cut off inside one instruction. -/
theorem ofWords_append_or_cutOff (words : List Int) :
    ((ofWords words).truncated = none → ∀ others,
        ofWords (words ++ others) =
          { items :=
              (ofWords words).items ++ (ofWords others).items.map (Decoded.moved words.length)
            truncated := (ofWords others).truncated.map (· + words.length) }) ∧
      ∀ address, (ofWords words).truncated = some address → CutOff words address :=
  ⟨fun complete others => ofWords_append complete others, fun _ cut => cutOff_of_truncated cut⟩

/-- A jump to the address in the next word, and a stream of which two words are missing. -/
theorem ofWords_append_or_cutOff_jump :
    let jump : List Int := [0x7dc1, 0x2a]
    let cut : List Int := [0x7dc1, 0x2a, 0x7de1]
    ((ofWords jump).truncated = none ∧
        ofWords (jump ++ [0x7de1]) = { items := (ofWords jump).items, truncated := some 2 }) ∧
      (ofWords cut).truncated = some 2 ∧ CutOff cut 2 := by
  intro jump cut
  have complete : (ofWords jump).truncated = none := by decide +kernel
  have truncated : (ofWords cut).truncated = some 2 := by decide +kernel
  refine ⟨⟨complete, ?_⟩, truncated, (ofWords_append_or_cutOff cut).2 2 truncated⟩
  rw [(ofWords_append_or_cutOff jump).1 complete]
  decide +kernel

end Decoding

end Dcpu
