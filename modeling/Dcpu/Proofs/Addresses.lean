import Dcpu.Proofs.Octets

/-!
# Addresses within a program

The address of an instruction is the sum of the sizes before it (`Program.getElem?_addresses`).
What a program gives, words or octets, is made of blocks, one for every instruction and of a length
that goes with its size, so the block of an instruction is found at its address
(`Program.locates_flatten`).

A program has words exactly if no instruction is faulty, which is to refer to a label still or to
have a field that does not fit, and the first faulty instruction tells the failure
(`Program.words_eq_error`).
-/

namespace Dcpu
open Results

namespace Program

/-! ### Sizes and addresses -/

lemma size_eq_sum (p : Program) : p.size = (p.instructions.map Instruction.size).sum := by
  rw [size, List.sum, List.foldr_map]

lemma addressesFrom_cons (address : Nat) (i : Instruction) (is : List Instruction) :
    addressesFrom [] address (i :: is) = address :: addressesFrom [] (address + i.size) is := by
  rw [addressesFrom, addressesFrom_eq_append]
  rfl

lemma addressesFrom_congr {is js : List Instruction}
    (sizes : is.map Instruction.size = js.map Instruction.size) (done : List Nat) (address : Nat) :
    addressesFrom done address is = addressesFrom done address js := by
  induction is generalizing js done address with
  | nil =>
    cases js with
    | nil => rfl
    | cons j js => cases sizes
  | cons i is ih =>
    cases js with
    | nil => cases sizes
    | cons j js =>
      obtain ⟨first, rest⟩ := List.cons.inj sizes
      rw [addressesFrom, addressesFrom, first]
      exact ih rest _ _

lemma length_addressesFrom (address : Nat) (is : List Instruction) :
    (addressesFrom [] address is).length = is.length := by
  induction is generalizing address with
  | nil => rfl
  | cons i is ih => rw [addressesFrom_cons, List.length_cons, List.length_cons, ih]

lemma le_of_mem_addressesFrom {address x : Nat} {is : List Instruction}
    (mem : x ∈ addressesFrom [] address is) : address ≤ x := by
  induction is generalizing address with
  | nil => cases mem
  | cons i is ih =>
    rw [addressesFrom_cons] at mem
    rcases List.mem_cons.1 mem with rfl | mem
    · exact le_refl x
    · exact le_trans (Nat.le_add_right address i.size) (ih mem)

/-- An instruction has at least one word, so the next one has a larger address. -/
lemma pairwise_addressesFrom (address : Nat) (is : List Instruction) :
    (addressesFrom [] address is).Pairwise (· < ·) := by
  induction is generalizing address with
  | nil => exact .nil
  | cons i is ih =>
    rw [addressesFrom_cons]
    apply List.Pairwise.cons
    · intro x mem
      have behind := le_of_mem_addressesFrom mem
      have size : i.size = 1 + i.trailing.length := rfl
      omega
    · exact ih (address + i.size)

lemma getElem?_addressesFrom {is : List Instruction} {n : Nat} {i : Instruction}
    (here : is[n]? = some i) (address : Nat) :
    (addressesFrom [] address is)[n]? =
      some (address + ((is.map Instruction.size).take n).sum) := by
  induction is generalizing address n with
  | nil => cases here
  | cons j is ih =>
    rw [addressesFrom_cons]
    cases n with
    | zero => rfl
    | succ n =>
      rw [List.getElem?_cons_succ, ih here, List.map_cons, List.take_succ_cons, List.sum_cons,
        Nat.add_assoc]

/-- An instruction stands behind the words of those before it. -/
lemma getElem?_addresses {p : Program} {n : Nat} {i : Instruction}
    (here : p.instructions[n]? = some i) :
    p.addresses[n]? = some ((p.instructions.map Instruction.size).take n).sum := by
  rw [addresses, getElem?_addressesFrom here, Nat.zero_add]

/-! ### Blocks -/

/-- Tells whether what a program gives is as long as its size asks for, with `unit` elements for
every word, and has at the address of every instruction what the instruction gives on its own. -/
def Locates {α : Type} (p : Program) (unit : Nat) (give : Instruction → Except Failure (List α))
    (whole : List α) : Prop :=
  whole.length = unit * p.size ∧
    ∀ (n : Nat) i, p.instructions[n]? = some i → ∃ address, p.addresses[n]? = some address ∧
      give i = .ok ((whole.drop (unit * address)).take (unit * i.size))

/-- A block is found behind the blocks before it. -/
lemma take_drop_flatten {α : Type} {blocks : List (List α)} {n : Nat} {block : List α}
    (here : blocks[n]? = some block) :
    (blocks.flatten.drop ((blocks.map List.length).take n).sum).take block.length = block := by
  obtain ⟨lt, rfl⟩ := List.getElem?_eq_some_iff.1 here
  rw [List.drop_sum_flatten, List.drop_eq_getElem_cons lt, List.flatten_cons, List.take_left]

/-- Blocks whose lengths go with the sizes of instructions are found at their addresses. -/
lemma locates_flatten {α : Type} {p : Program} {unit : Nat}
    {give : Instruction → Except Failure (List α)} {blocks : List (List α)}
    (given : p.instructions.mapM give = .ok blocks)
    (length : ∀ i block, give i = .ok block → block.length = unit * i.size) :
    p.Locates unit give blocks.flatten := by
  have each := mapM_eq_ok.1 given
  have lengths : blocks.map List.length = (p.instructions.map Instruction.size).map (unit * ·) := by
    rw [List.map_map]
    apply map_eq_map_iff.2
    exact (each.imp fun i block ok => length i block ok).flip
  constructor
  · rw [List.length_flatten, lengths, List.sum_map_mul_left, List.map_id', size_eq_sum]
  · intro n i here
    obtain ⟨block, found, ok⟩ := exists_getElem? each here
    refine ⟨_, getElem?_addresses here, ?_⟩
    have slice := take_drop_flatten found
    rw [lengths, ← List.map_take, List.sum_map_mul_left, List.map_id', length i block ok] at slice
    rw [slice]
    exact ok

end Program

/-! ### Words and octets -/

namespace Slot

/-- Slots have values if they are literals. -/
lemma mapM_value_eq_ok {slots : List Slot} {values : List Int} :
    slots.mapM value = .ok values ↔ slots = values.map .literal := by
  have known {slot : Slot} {v : Int} : slot.value = .ok v ↔ slot = .literal v := by
    cases slot <;> simp [value]
  rw [mapM_eq_ok, ← List.forall₂_eq_eq_eq, List.forall₂_map_right_iff]
  simp only [known]

/-- Slots are literals if none of them is a reference. -/
lemma exists_literals {slots : List Slot} :
    (∃ values : List Int, slots = values.map .literal) ↔ ∀ label, reference label ∉ slots := by
  constructor
  · rintro ⟨values, rfl⟩ label mem
    obtain ⟨_, _, e⟩ := List.mem_map.1 mem
    cases e
  · intro known
    induction slots with
    | nil => exact ⟨[], rfl⟩
    | cons slot slots ih =>
      obtain ⟨values, rfl⟩ := ih fun label mem => known label (List.mem_cons_of_mem _ mem)
      cases slot with
      | literal value => exact ⟨value :: values, rfl⟩
      | reference label => exact absurd List.mem_cons_self (known label)

end Slot

namespace Instruction

/-- An instruction of which a slot still refers to a label or a field does not fit. -/
def Faulty (i : Instruction) : Prop :=
  (∃ label, Slot.reference label ∈ i.trailing) ∨ ¬i.fields.Fits

/-- The words of an instruction are the instruction word and the values of its slots. -/
lemma words_eq_ok_iff {i : Instruction} {ws : List Int} :
    i.words = .ok ws ↔ i.fields.Fits ∧ ∃ values, i.trailing = values.map .literal ∧
      ws = i.fields.word :: values := by
  constructor
  · intro known
    unfold words at known
    split at known
    · next values slots =>
      obtain ⟨word, packed, rfl⟩ := map_eq_ok.1 known
      obtain ⟨fits, rfl⟩ := Fields.pack_eq_ok_iff.1 packed
      exact ⟨fits, values, Slot.mapM_value_eq_ok.1 slots, rfl⟩
    · cases known
  · rintro ⟨fits, values, filled, rfl⟩
    have same := values_eq filled
    rw [← same] at filled ⊢
    exact words_eq_ok fits filled

/-- Exactly the faulty instructions have no words. -/
lemma not_faulty_iff {i : Instruction} : ¬i.Faulty ↔ ∃ ws, i.words = .ok ws := by
  rw [Faulty, not_or, not_exists, ← Slot.exists_literals, not_not]
  constructor
  · rintro ⟨⟨values, filled⟩, fits⟩
    exact ⟨_, words_eq_ok_iff.2 ⟨fits, values, filled, rfl⟩⟩
  · rintro ⟨ws, known⟩
    obtain ⟨fits, values, filled, _⟩ := words_eq_ok_iff.1 known
    exact ⟨⟨values, filled⟩, fits⟩

lemma length_words {i : Instruction} {ws : List Int} (known : i.words = .ok ws) :
    ws.length = i.size := by
  obtain ⟨_, values, filled, rfl⟩ := words_eq_ok_iff.1 known
  rw [size, filled, List.length_cons, List.length_map, Nat.add_comm]

lemma bytes_eq_ok_iff {i : Instruction} {octets : List UInt8} :
    i.bytes = .ok octets ↔ ∃ ws, i.words = .ok ws ∧ BigEndian ws octets := by
  simp only [bytes, ← wordsToBytes_eq_ok_iff_bigEndian]
  exact bind_eq_ok

lemma length_bytes {i : Instruction} {octets : List UInt8} (known : i.bytes = .ok octets) :
    octets.length = 2 * i.size := by
  obtain ⟨ws, words, related⟩ := bytes_eq_ok_iff.1 known
  rw [related.length_bytes, length_words words]

end Instruction

namespace Program

lemma bytes_eq_ok_iff {p : Program} {octets : List UInt8} :
    p.bytes = .ok octets ↔ ∃ ws, p.words = .ok ws ∧ BigEndian ws octets := by
  simp only [bytes, ← wordsToBytes_eq_ok_iff_bigEndian]
  exact bind_eq_ok

/-- The octets of a program are those of its instructions. -/
lemma bytes_eq_ok {p : Program} {octets : List UInt8} :
    p.bytes = .ok octets ↔
      ∃ parts, p.instructions.mapM Instruction.bytes = .ok parts ∧ octets = parts.flatten := by
  simp only [bytes_eq_ok_iff, words, map_eq_ok, mapM_eq_ok, Instruction.bytes_eq_ok_iff]
  constructor
  · rintro ⟨_, ⟨blocks, known, rfl⟩, related⟩
    obtain ⟨parts, each, rfl⟩ := BigEndian.flatten_iff.1 related
    refine ⟨parts, forall₂_trans ?_ known each, rfl⟩
    exact fun i block part ok here => ⟨block, ok, here⟩
  · rintro ⟨parts, given, rfl⟩
    obtain ⟨blocks, each, known⟩ :=
      forall₂_choose (fun _ _ here => here.imp fun _ => And.symm) given
    exact ⟨_, ⟨blocks, known, rfl⟩, BigEndian.flatten_iff.2 ⟨parts, each.flip, rfl⟩⟩

/-- A program has no words if it has a faulty instruction, and the first one tells the failure. -/
lemma words_eq_error {p : Program} {f : Failure} :
    p.words = .error f ↔ ∃ before i after, p.instructions = before ++ i :: after ∧
      (∀ j ∈ before, ¬j.Faulty) ∧ i.Faulty ∧ i.words = .error f := by
  have sound {is : List Instruction} :
      (∃ blocks, is.mapM Instruction.words = .ok blocks) ↔ ∀ i ∈ is, ¬i.Faulty := by
    simp only [Instruction.not_faulty_iff]
    constructor
    · rintro ⟨blocks, known⟩ i mem
      obtain ⟨ws, _, ok⟩ := exists_of_mem_left (mapM_eq_ok.1 known) mem
      exact ⟨ws, ok⟩
    · exact exists_mapM_eq_ok
  rw [words, map_eq_error, mapM_eq_error]
  constructor
  · rintro ⟨before, i, after, blocks, split, known, failed⟩
    refine ⟨before, i, after, split, sound.1 ⟨blocks, known⟩, ?_, failed⟩
    by_contra well
    obtain ⟨ws, ok⟩ := Instruction.not_faulty_iff.1 well
    rw [failed] at ok
    cases ok
  · rintro ⟨before, i, after, split, earlier, _, failed⟩
    obtain ⟨blocks, known⟩ := sound.2 earlier
    exact ⟨before, i, after, blocks, split, known, failed⟩

/-- The addresses of a program say where its instructions are. There is one for every instruction,
and they increase. If there are words, the words of every instruction stand at its address, and if
there are octets, they are those of the instructions, each at twice its address. There are no words
exactly if an instruction is faulty, and then the first such instruction tells the failure. -/
theorem addresses_locate (p : Program) :
    p.addresses.length = p.instructions.length ∧ p.addresses.Pairwise (· < ·) ∧
      (∀ words, p.words = .ok words → p.Locates 1 Instruction.words words) ∧
      (∀ octets, p.bytes = .ok octets → p.Locates 2 Instruction.bytes octets ∧
        ∃ parts, p.instructions.mapM Instruction.bytes = .ok parts ∧ octets = parts.flatten) ∧
      ((∃ f, p.words = .error f) ↔ ∃ i ∈ p.instructions, i.Faulty) ∧
      ∀ f, p.words = .error f ↔ ∃ before i after, p.instructions = before ++ i :: after ∧
        (∀ j ∈ before, ¬j.Faulty) ∧ i.Faulty ∧ i.words = .error f := by
  refine ⟨length_addressesFrom 0 p.instructions, pairwise_addressesFrom 0 p.instructions,
    ?_, ?_, ?_, fun f => words_eq_error⟩
  · intro words known
    obtain ⟨blocks, given, rfl⟩ := map_eq_ok.1 known
    apply locates_flatten given
    intro i block ok
    rw [Instruction.length_words ok, Nat.one_mul]
  · intro octets known
    obtain ⟨parts, given, rfl⟩ := bytes_eq_ok.1 known
    exact ⟨locates_flatten given fun i part ok => Instruction.length_bytes ok, parts, given, rfl⟩
  · constructor
    · rintro ⟨f, failed⟩
      obtain ⟨before, i, after, split, _, faulty, _⟩ := words_eq_error.1 failed
      exact ⟨i, by rw [split]; simp, faulty⟩
    · rintro ⟨i, mem, faulty⟩
      cases result : p.words with
      | error f => exact ⟨f, rfl⟩
      | ok words =>
        obtain ⟨blocks, given, _⟩ := map_eq_ok.1 result
        obtain ⟨ws, _, ok⟩ := exists_of_mem_left (mapM_eq_ok.1 given) mem
        exact absurd faulty (Instruction.not_faulty_iff.2 ⟨ws, ok⟩)

/-- Two instructions with a word behind them around one without, and the same instructions with an
opcode that does not fit in the second and a label in the third. -/
theorem addresses_locate_faulty :
    let first : Instruction := ⟨{}, ⟨1, 0, 0x1f⟩, [.literal 0x30]⟩
    let i : Instruction := ⟨{ line := some 7 }, ⟨16, 1, 0⟩, []⟩
    let p : Program := ⟨[first, ⟨{}, ⟨2, 1, 0⟩, []⟩, ⟨{}, ⟨0, 1, 0x1f⟩, [.literal 0xffff]⟩], []⟩
    let q : Program := ⟨[first, i, ⟨{}, ⟨0, 1, 0x1f⟩, [.reference "x"]⟩], []⟩
    let words : List Int := [0x7c01, 0x30, 0x0012, 0x7c10, 0xffff]
    let octets : List UInt8 := [0x7c, 0x01, 0x00, 0x30, 0x00, 0x12, 0x7c, 0x10, 0xff, 0xff]
    p.words = .ok words ∧ p.Locates 1 Instruction.words words ∧
      p.bytes = .ok octets ∧ p.Locates 2 Instruction.bytes octets ∧
      i.Faulty ∧ q.words = .error (.diagnostic { fault := .opcodeWidth 16 }) := by
  intro first i p q words octets
  have known : p.words = .ok words := toOption_eq_some.1 (by decide)
  have fits : p.bytes = .ok octets := toOption_eq_some.1 (by decide)
  have faulty : i.Faulty := .inr (by decide)
  have before : ∀ j ∈ [first], ¬j.Faulty := by
    intro j mem
    cases List.mem_singleton.1 mem
    exact Instruction.not_faulty_iff.2 ⟨[0x7c01, 0x30], rfl⟩
  obtain ⟨_, _, atWords, atOctets, _⟩ := addresses_locate p
  obtain ⟨_, _, _, _, _, failure⟩ := addresses_locate q
  refine ⟨known, atWords words known, fits, (atOctets octets fits).1, faulty, (failure _).2 ?_⟩
  exact ⟨[first], i, _, rfl, before, faulty, rfl⟩

end Program

end Dcpu
