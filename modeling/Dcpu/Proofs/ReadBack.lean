import Dcpu.Proofs.Consistency
import Dcpu.Proofs.Listing
import Dcpu.Proofs.Serialising

/-!
# Numbers in a listing

What is written in decimal or in hexadecimal can be read as the number that it was
(`Text.number?_decimal`, `Text.number?_hex`), however many digits it has. So the texts of a listing
are read as numbers: from the listing of a program come the line numbers and the words of its
instructions (`Listing.decode?_listing`), and from its words one to a line come its words
(`Listing.decodeDump?_hexDump`), as long as no number is negative. In an assembled program none is,
and its listing tells all its words and line numbers (`Assembler.readsBack_of_assemble`), if there
are not so many lines that their numbers cannot be written.
-/

namespace Dcpu
open Results

/-! ### Numbers -/

namespace Text

/-- Reads a number from its digits. -/
def number? (base : Nat) (digit? : Char → Option Nat) (cs : List Char) : Option Int :=
  (digits? digit? cs).map fun ds => ofDigits base ds

lemma number?_eq_some {base : Nat} {digit? : Char → Option Nat} {cs : List Char} {ds : List Nat}
    (nonempty : cs ≠ []) (digits : cs = ds.map Nat.digitChar)
    (reads : ∀ d ∈ ds, digit? (Nat.digitChar d) = some d) :
    number? base digit? cs = some (ofDigits base ds : Int) := by
  rw [digits] at nonempty ⊢
  rw [number?, digits?_map (fun empty => nonempty (List.map_eq_nil_iff.2 empty)) reads]
  rfl

lemma decimalDigit?_digitChar {d : Nat} (small : d < 10) :
    decimalDigit? (Nat.digitChar d) = some d := by
  interval_cases d <;> rfl

/-- A natural number is read back from its decimal digits. -/
lemma number?_decimal (n : Nat) :
    number? 10 decimalDigit? (decimal n).toList = some (n : Int) := by
  obtain ⟨ds, digits, bounded, value⟩ := exists_digits (by decide : 1 < 10) n
  have text : (decimal n).toList = Nat.toDigits 10 n := by
    rw [decimal, if_neg (by omega), String.toList_ofList, Int.natAbs_natCast]
  rw [text, number?_eq_some Nat.toDigits_ne_nil digits, value]
  exact fun d mem => decimalDigit?_digitChar (bounded d mem)

lemma hex_ne_nil (width : Nat) (n : Int) : (hex width n).toList ≠ [] := by
  rw [hex, String.toList_ofList]
  split
  · exact List.cons_ne_nil _ _
  · exact List.append_ne_nil_of_right_ne_nil _ Nat.toDigits_ne_nil

/-- A number that is not negative is read back from its hexadecimal digits, of which there may be
more than the width asks for. -/
lemma number?_hex (width : Nat) {n : Int} (nonneg : 0 ≤ n) :
    number? 16 hexDigit? (hex width n).toList = some n := by
  obtain ⟨ds, digits, bounded, value⟩ := exists_digits_hex width nonneg
  rw [number?_eq_some (hex_ne_nil width n) digits, value]
  exact fun d mem => hexDigit?_digitChar (bounded d mem)

end Text

/-! ### Listings -/

namespace Listing

/-- The number and the words of a line. -/
def Entry.decode? (e : Entry) : Option (Int × List Int) := do
  let number ← Text.number? 10 Text.decimalDigit? e.number
  let words ← e.words.mapM (Text.number? 16 Text.hexDigit?)
  return (number, words)

/-- The numbers and the words of the lines of a listing. -/
def decode? (listing : String) : Option (List (Int × List Int)) := do
  let entries ← read? listing
  entries.mapM Entry.decode?

/-- The words of a text that has one of them on each line. -/
def decodeDump? (dump : String) : Option (List Int) :=
  readLines? (Text.number? 16 Text.hexDigit?) dump

lemma mapM_number?_hex {words : List Int} (nonneg : ∀ w ∈ words, 0 ≤ w) :
    (words.map fun w => (Text.hex 4 w).toList).mapM (Text.number? 16 Text.hexDigit?) =
      some words := by
  rw [mapM_eq_some, List.forall₂_map_left_iff, List.forall₂_same]
  exact fun w mem => Text.number?_hex 4 (nonneg w mem)

lemma decode?_entry {i : Instruction} {words : List Int} {n : Nat}
    (line : i.location.line = some (n : Int)) (nonneg : ∀ w ∈ words, 0 ≤ w) :
    (entry i words).decode? = some ((n : Int), words) := by
  have number : (entry i words).number = (Text.decimal n).toList := by
    show i.lineNumber.toList = _
    rw [Instruction.lineNumber, line]
    rfl
  have texts : (entry i words).words.mapM (Text.number? 16 Text.hexDigit?) = some words :=
    mapM_number?_hex nonneg
  rw [Entry.decode?, number, Text.number?_decimal, texts]
  rfl

/-- Tells whether entries are the line numbers and the words of the instructions of a program. -/
def Tells (entries : List (Int × List Int)) (p : Program) : Prop :=
  List.Forall₂ (fun i e => i.location.line = some e.1 ∧ i.words = .ok e.2) p.instructions entries

/-- The line numbers and words of the instructions of a program are read from its listing. -/
lemma decode?_listing {p : Program} {listing : String} {whole : List Int}
    (listed : p.listing = .ok listing) (known : p.words = .ok whole)
    (nonneg : ∀ w ∈ whole, 0 ≤ w)
    (numbered : ∀ i ∈ p.instructions, ∃ n : Nat, i.location.line = some (n : Int)) :
    ∃ entries, decode? listing = some entries ∧ Tells entries p := by
  obtain ⟨blocks, given, rfl⟩ := map_eq_ok.1 known
  obtain ⟨texts, read, written⟩ := read?_listing listed
  have each : ∀ i ∈ p.instructions, (∃ n : Nat, i.location.line = some (n : Int)) ∧
      ∀ words, i.words = .ok words → ∀ w ∈ words, 0 ≤ w := by
    intro i mem
    refine ⟨numbered i mem, ?_⟩
    intro words ok w inside
    obtain ⟨block, member, here⟩ := exists_of_mem_left (mapM_eq_ok.1 given) mem
    rw [ok] at here
    cases here
    exact nonneg w (List.mem_flatten_of_mem member inside)
  obtain ⟨entries, decoded, told⟩ : ∃ entries,
      List.Forall₂ (fun e d => Entry.decode? e = some d) texts entries ∧ Tells entries p := by
    refine forall₂_choose ?_ ((List.forall₂_and_left _ _).2 ⟨each, written⟩)
    rintro i _ ⟨⟨⟨n, line⟩, nonneg⟩, words, ok, rfl⟩
    exact ⟨(n, words), decode?_entry line (nonneg words ok), line, ok⟩
  refine ⟨entries, ?_, told⟩
  rw [decode?, read]
  exact mapM_eq_some.2 decoded

section
variable {entries : List (Int × List Int)} {p : Program}

lemma Tells.lines (told : Tells entries p) :
    p.instructions.map (·.location.line) = entries.map fun e => some e.1 :=
  map_eq_map_iff.2 (told.imp fun _ _ h => h.1)

lemma Tells.blocks (told : Tells entries p) :
    p.instructions.map Instruction.words = entries.map fun e => .ok e.2 :=
  map_eq_map_iff.2 (told.imp fun _ _ h => h.2)

lemma Tells.words (told : Tells entries p) :
    p.words = .ok (entries.map Prod.snd).flatten := by
  refine map_eq_ok.2 ⟨entries.map Prod.snd, mapM_eq_ok.2 ?_, rfl⟩
  rw [List.forall₂_map_right_iff]
  exact told.imp fun _ _ h => h.2

end

/-- The words of a program are read from its words in hexadecimal. -/
lemma decodeDump?_hexDump {p : Program} {words : List Int} (known : p.words = .ok words)
    (nonneg : ∀ w ∈ words, 0 ≤ w) :
    ∃ dump, p.hexDump = .ok dump ∧ decodeDump? dump = some words := by
  refine ⟨_, map_eq_ok.2 ⟨words, known, rfl⟩, readLines?_intercalate rfl ?_ ?_⟩
  · intro line mem newline
    obtain ⟨w, _, rfl⟩ := List.mem_map.1 mem
    exact (Text.isNumeric_of_mem_hex newline).not_mem_separators (by decide)
  · rw [List.forall₂_map_left_iff, List.forall₂_same]
    exact fun w mem => Text.number?_hex 4 (nonneg w mem)

end Listing

/-! ### Assembled programs -/

/-- The words of an assembled program are not negative. -/
lemma nonneg_of_assemble {source : String} {p : Program} {words : List Int}
    (ok : assemble source = .ok p) (known : p.words = .ok words) : ∀ w ∈ words, 0 ≤ w := by
  obtain ⟨given, _, unfit⟩ := words_of_assemble ok
  obtain ⟨_, within, _⟩ := targets_of_assemble ok
  rw [given] at known
  cases known
  intro w mem
  by_cases isWord : IsWord w
  · exact isWord.1
  · -- A word that does not fit is the address of a label.
    have address : w ∈ List.filter (¬IsWord ·) _ :=
      List.mem_filter.2 ⟨mem, decide_eq_true isWord⟩
    rw [unfit] at address
    exact (within w (List.mem_filter.1 address).1).1

lemma exists_line_of_assemble {source : String} {p : Program} (ok : assemble source = .ok p) :
    ∀ i ∈ p.instructions, ∃ n : Nat, i.location.line = some (n : Int) := by
  intro i mem
  obtain ⟨line, _, location, _⟩ := exists_of_mem_right (forall₂_assemble ok) mem
  exact ⟨line.2, by rw [location]; rfl⟩

/-- The lines of the instructions can be written if this is so for all lines of the source. -/
lemma isWritable_of_assemble {source : String} {p : Program} (ok : assemble source = .ok p)
    (numbered : Source.IsNumbered source) : ∀ i ∈ p.instructions, i.location.isWritable = true := by
  intro i mem
  obtain ⟨line, member, location, _⟩ := exists_of_mem_right (forall₂_assemble ok) mem
  have within := List.mem_zipIdx (List.mem_of_mem_filter member)
  rw [location]
  exact Text.isWritable_of_le (by omega) (Text.isWritable_natCast.2 numbered)

namespace Assembler

/-- What can be read of a program that an assembler holds: from its listing the line numbers and the
words of the instructions, and from its words in hexadecimal the words. -/
structure ReadsBack (a : Assembler) (p : Program) : Prop where
  listing : ∃ listing entries, a.listing = .ok listing ∧ Listing.decode? listing = some entries ∧
    Listing.Tells entries p
  hexDump : ∃ dump words, a.hexDump = .ok dump ∧ Listing.decodeDump? dump = some words ∧
    p.words = .ok words

lemma currentProgram_of_assemble {a : Assembler} {source : String} {p : Program}
    (ok : Dcpu.assemble source = .ok p) : (a.assemble source).state.currentProgram = .ok p := by
  rw [state_of_ok ok]
  rfl

/-- Whenever there is a listing, it tells the words and line numbers. -/
lemma tells_of_listing {a : Assembler} {source listing : String} {p : Program}
    (ok : Dcpu.assemble source = .ok p)
    (listed : (a.assemble source).state.listing = .ok listing) :
    ∃ entries, Listing.decode? listing = some entries ∧ Listing.Tells entries p := by
  obtain ⟨known, _⟩ := words_of_assemble ok
  rw [Assembler.listing, currentProgram_of_assemble ok] at listed
  exact Listing.decode?_listing (mapError_eq_ok.1 listed) known (nonneg_of_assemble ok known)
    (exists_line_of_assemble ok)

lemma readsBack_of_assemble {a : Assembler} {source : String} {p : Program}
    (ok : Dcpu.assemble source = .ok p) (numbered : Source.IsNumbered source) :
    (a.assemble source).state.ReadsBack p := by
  obtain ⟨known, _⟩ := words_of_assemble ok
  constructor
  · obtain ⟨listing, written⟩ :=
      (Listing.exists_listing_iff known).2 (isWritable_of_assemble ok numbered)
    have listed : (a.assemble source).state.listing = .ok listing := by
      rw [Assembler.listing, currentProgram_of_assemble ok]
      exact mapError_eq_ok.2 written
    obtain ⟨entries, decoded, told⟩ := tells_of_listing ok listed
    exact ⟨listing, entries, listed, decoded, told⟩
  · obtain ⟨dump, written, read⟩ :=
      Listing.decodeDump?_hexDump known (nonneg_of_assemble ok known)
    refine ⟨dump, _, ?_, read, known⟩
    rw [Assembler.hexDump, currentProgram_of_assemble ok]
    exact mapError_eq_ok.2 written

/-- The listing and the words in hexadecimal of an assembled program can be read back, so another
program with this listing has the same words and line numbers. -/
theorem listing_reads_back {a : Assembler} {source : String} {p : Program}
    (ok : (a.assemble source).result = .ok p) (numbered : Source.IsNumbered source) :
    (a.assemble source).state.ReadsBack p ∧
      ∀ (b : Assembler) (other : String) (q : Program), (b.assemble other).result = .ok q →
        (b.assemble other).state.listing = (a.assemble source).state.listing →
        q.instructions.map (·.location.line) = p.instructions.map (·.location.line) ∧
        q.instructions.map Instruction.words = p.instructions.map Instruction.words ∧
        q.words = p.words := by
  rw [result_assemble] at ok
  have back := readsBack_of_assemble (a := a) ok numbered
  refine ⟨back, ?_⟩
  intro b other q made same
  obtain ⟨listing, entries, listed, decoded, told⟩ := back.listing
  rw [result_assemble] at made
  obtain ⟨entries', decoded', told'⟩ := tells_of_listing made (same.trans listed)
  rw [decoded] at decoded'
  cases decoded'
  exact ⟨told'.lines.trans told.lines.symm, told'.blocks.trans told.blocks.symm,
    told'.words.trans told.words.symm⟩

/-- Two sources that differ in the name of the label, its line and a numeral. -/
theorem listing_reads_back_renamed :
    let source := "SET A, 0x30\n\n:x SET PC, x"
    let other := "SET A, 48 ; 0x30\n:loop\nSET PC, loop"
    let listing := "1: 7c01 0030\n3: 7dc1 0002"
    let p : Program := ⟨[⟨.ofLine 1 "SET A, 0x30", ⟨1, 0, 0x1f⟩, [.literal 0x30]⟩,
      ⟨.ofLine 3 ":x SET PC, x", ⟨1, 0x1c, 0x1f⟩, [.literal 2]⟩], [("x", 2)]⟩
    let q : Program := ⟨[⟨.ofLine 1 "SET A, 48 ; 0x30", ⟨1, 0, 0x1f⟩, [.literal 48]⟩,
      ⟨.ofLine 3 "SET PC, loop", ⟨1, 0x1c, 0x1f⟩, [.literal 2]⟩], [("loop", 2)]⟩
    let a : Assembler := {}
    (a.assemble source).result = .ok p ∧ Source.IsNumbered source ∧
      (a.assemble source).state.listing = .ok listing ∧
      Listing.decode? listing = some [(1, [0x7c01, 0x30]), (3, [0x7dc1, 2])] ∧
      (a.assemble source).state.ReadsBack p ∧
      (a.assemble other).result = .ok q ∧ (a.assemble other).state.listing = .ok listing ∧
      q.words = p.words := by
  intro source other listing p q a
  have ok : (a.assemble source).result = .ok p := toOption_eq_some.1 (by decide +kernel)
  have made : (a.assemble other).result = .ok q := toOption_eq_some.1 (by decide +kernel)
  have left : (a.assemble source).state.listing = .ok listing :=
    toOption_eq_some.1 (by decide +kernel)
  have right : (a.assemble other).state.listing = .ok listing :=
    toOption_eq_some.1 (by decide +kernel)
  have numbered : Source.IsNumbered source := by decide +kernel
  obtain ⟨back, same⟩ := listing_reads_back ok numbered
  obtain ⟨_, _, words⟩ := same a other q made (right.trans left.symm)
  exact ⟨ok, numbered, left, by decide +kernel, back, made, right, words⟩

end Assembler

end Dcpu
