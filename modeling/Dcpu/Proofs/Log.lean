import Dcpu.Proofs.Literals
import Dcpu.Proofs.ReadBack
import Dcpu.Proofs.StandardInput

/-!
# The log of an assembly

An assembler that is verbose tells what it does, line by line. From the words of such a line the
numbers in it can be read back: the address and the size of an instruction (`Log.instruction?`) and
the name and the address of a label (`Log.label?`). What a line of the source tells is its label and
its instruction (`Log.tells_told`), and a scan tells this of every line at the address that it has
reached by then (`Scan.foldl_add_events`). So the log of a scan has the same addresses as the
program, which computes them from the resolved instructions.
-/

namespace Dcpu
open Results
open Source (references)

/-! ### Reading a log -/

namespace Log

/-- Tells whether a character is a hexadecimal digit with which addresses are written. -/
def isDigit (c : Char) : Bool :=
  '0' ≤ c && c ≤ '9' || 'A' ≤ c && c ≤ 'F'

/-- Reads an address: behind `0x` at least four hexadecimal digits with capital letters, and no more
digits than the number needs otherwise. -/
def address? (cs : List Char) : Option Nat := do
  let digits ← List.isPrefixOf? "0x".toList cs
  let ds ← Text.digits? Text.hexDigit? digits
  let n := Text.ofDigits 16 ds
  if digits.all isDigit ∧ digits.length = max 4 (Nat.toDigits 16 n).length then some n else none

/-- Reads the address and the number of words from a line about an instruction. The address ends at
the first colon, and the number follows the last parenthesis. -/
def instruction? (line : String) : Option (Nat × Nat) := do
  let rest ← List.isPrefixOf? "  ".toList line.toList
  let address ← address? (rest.takeWhile (· != ':'))
  let front ← List.isSuffixOf? " words)".toList rest
  let size ← Text.number? 10 Text.decimalDigit? (front.rtakeWhile (· != '('))
  return (address, size.toNat)

/-- Reads the name and the address from a line about a label. The name ends at the last quote. -/
def label? (line : String) : Option (String × Int) := do
  let rest ← List.isPrefixOf? "  Label '".toList line.toList
  let place ← List.isPrefixOf? " at ".toList (rest.rtakeWhile (· != '\''))
  let address ← address? place
  let name ← List.isSuffixOf? ['\''] (rest.rdropWhile (· != '\''))
  return (String.ofList name, (address : Int))

/-- Tells whether lines are about instructions with addresses and sizes and about labels with
addresses, both in their order, and about nothing else. -/
structure Tells (body : List String) (instructions : List (Nat × Nat)) (labels : Labels) :
    Prop where
  instructions : body.filterMap instruction? = instructions
  labels : body.filterMap label? = labels
  others : ∀ line ∈ body, (instruction? line).isSome ∨ (label? line).isSome

/-- The log of a source that is assembled to a program, around the lines of the first pass. -/
def ofProgram (source : String) (p : Program) (body : List String) : List String :=
  "=== Pass 1: Encoding instructions ===" ::
    (body ++ ["  Total symbols: " ++ Text.decimal p.labels.length,
      "  Program size: " ++ Text.decimal p.size ++ " words",
      "=== Pass 2: Resolving labels ===",
      "  Resolved " ++ Text.decimal (references source).length ++ " label references",
      "  Total instructions: " ++ Text.decimal p.instructions.length])

lemma isPrefixOf?_append (first rest : List Char) :
    List.isPrefixOf? first (first ++ rest) = some rest :=
  List.isPrefixOf?_eq_some_iff_append_eq.2 rfl

lemma isSuffixOf?_append (rest last : List Char) :
    List.isSuffixOf? last (rest ++ last) = some rest :=
  List.isSuffixOf?_eq_some_iff_append_eq.2 rfl

lemma rtakeWhile_append {c : Char} {behind : List Char} (absent : c ∉ behind)
    (before : List Char) : (before ++ c :: behind).rtakeWhile (· != c) = behind := by
  have reversed := bne_of_not_mem (mt List.mem_reverse.1 absent)
  simp [List.rtakeWhile, List.takeWhile_append_of_pos reversed]

lemma rdropWhile_append {c : Char} {behind : List Char} (absent : c ∉ behind)
    (before : List Char) : (before ++ c :: behind).rdropWhile (· != c) = before ++ [c] := by
  have reversed := bne_of_not_mem (mt List.mem_reverse.1 absent)
  simp [List.rdropWhile, List.dropWhile_append_of_pos reversed]

/-- The character of a hexadecimal digit, from ten on a capital letter. -/
def capital (d : Nat) : Char :=
  (Nat.digitChar d).toUpper

/-- The digits of an address are upper-case hexadecimal digits. -/
lemma isDigit_capital {d : Nat} (small : d < 16) : isDigit (capital d) = true := by
  interval_cases d <;> decide

/-- An address has the digits of its number, with zeros in front if these are fewer than four. -/
lemma exists_digits_capitalAddress (n : Nat) :
    ∃ ds, (Text.capitalAddress n).toList = "0x".toList ++ ds.map capital ∧ (∀ d ∈ ds, d < 16) ∧
      Text.ofDigits 16 ds = n ∧ ds.length = max 4 (Nat.toDigits 16 n).length := by
  obtain ⟨ds, digits, bounded, value⟩ := Text.exists_digits_hex 4 (Int.natCast_nonneg n)
  refine ⟨ds, ?_, bounded, Int.natCast_inj.1 value, ?_⟩
  · rw [Text.capitalAddress, String.toList_append, digits, List.map_map]
    exact congrArg ("0x".toList ++ ·) String.toList_ofList
  · have length := congrArg List.length digits
    rw [Text.hex, if_neg (by omega), String.toList_ofList, Text.zeroPad, List.length_append,
      List.length_replicate, List.length_map, Int.natAbs_natCast] at length
    omega

/-- An address is read back from its text. -/
lemma address?_capitalAddress (n : Nat) : address? (Text.capitalAddress n).toList = some n := by
  obtain ⟨ds, text, bounded, value, length⟩ := exists_digits_capitalAddress n
  have read : Text.digits? Text.hexDigit? (ds.map capital) = some ds := by
    apply Text.digits?_map
    · rintro rfl
      rw [List.length_nil] at length
      omega
    · exact fun d mem => Text.hexDigit?_eq_some.2 ⟨bounded d mem, .inr rfl⟩
  have digits : (ds.map capital).all isDigit = true := by
    rw [List.all_map, List.all_eq_true]
    exact fun d mem => isDigit_capital (bounded d mem)
  rw [text]
  simp only [address?, isPrefixOf?_append, read, value, Option.bind_eq_bind, Option.bind_some]
  rw [if_pos ⟨digits, by rw [List.length_map, length]⟩]

/-- The text of an address has nothing but digits and an x. -/
lemma not_mem_capitalAddress {c : Char} (other : c ≠ 'x') (digit : isDigit c = false) (n : Nat) :
    c ∉ (Text.capitalAddress n).toList := by
  obtain ⟨ds, text, bounded, _⟩ := exists_digits_capitalAddress n
  rw [text]
  intro mem
  rcases List.mem_append.1 mem with front | mem
  · rcases List.mem_pair.1 front with rfl | rfl
    · cases digit
    · exact other rfl
  · obtain ⟨d, member, rfl⟩ := List.mem_map.1 mem
    rw [isDigit_capital (bounded d member)] at digit
    cases digit

/-! ### Lines of a log -/

/-- The characters of a message on a label. -/
lemma toList_text_label (name : String) (address : Nat) :
    (Event.labelDefined name address).text.toList = "  Label '".toList ++
      (name.toList ++ '\'' :: (" at ".toList ++ (Text.capitalAddress address).toList)) := by
  change ("  Label '" ++ name ++ "' at " ++ Text.capitalAddress address).toList = _
  simp only [String.toList_append, List.append_assoc]
  rfl

/-- A line about an instruction has the address in front and the size at its end. -/
lemma toList_text_instruction (address : Nat) (mnemonic : String) (operands : List String)
    (size : Nat) : ∃ between,
      (Event.instructionEncoded address mnemonic operands size).text.toList = "  ".toList ++
        ((Text.capitalAddress address).toList ++ ':' :: (between ++
          '(' :: ((Text.decimal size).toList ++ " words)".toList))) := by
  refine ⟨(" " ++ mnemonic ++ " " ++ ", ".intercalate operands ++ " ").toList, ?_⟩
  change ("  " ++ Text.capitalAddress address ++ ": " ++ mnemonic ++ " " ++
    ", ".intercalate operands ++ " (" ++ Text.decimal size ++ " words)").toList = _
  simp only [String.toList_append, List.append_assoc]
  rfl

/-- A message on a label tells its name and address. -/
lemma label?_label (name : String) (address : Nat) :
    label? (Event.labelDefined name address).text = some (name, (address : Int)) := by
  have quote : '\'' ∉ " at ".toList ++ (Text.capitalAddress address).toList := by
    rw [List.mem_append, not_or]
    exact ⟨by decide, not_mem_capitalAddress (by decide) rfl address⟩
  rw [label?, toList_text_label, isPrefixOf?_append]
  simp only [Option.bind_eq_bind, Option.bind_some, rtakeWhile_append quote, rdropWhile_append quote,
    isPrefixOf?_append, address?_capitalAddress address]
  rw [isSuffixOf?_append, Option.bind_some, String.ofList_toList]
  rfl

/-- A message on a label is not one on an instruction. -/
lemma instruction?_label (name : String) (address : Nat) :
    instruction? (Event.labelDefined name address).text = none := by
  rw [instruction?, toList_text_label]
  -- An `L` stands where an address would begin.
  rfl

/-- A message on an instruction tells its address and size. -/
lemma instruction?_instruction (address : Nat) (mnemonic : String) (operands : List String)
    (size : Nat) :
    instruction? (Event.instructionEncoded address mnemonic operands size).text =
      some (address, size) := by
  obtain ⟨between, text⟩ := toList_text_instruction address mnemonic operands size
  have colon := bne_of_not_mem (not_mem_capitalAddress (c := ':') (by decide) rfl address)
  have parenthesis : '(' ∉ (Text.decimal size).toList := by
    intro mem
    rcases Text.isNumeric_of_mem_decimal mem with e | ⟨d, e⟩
    · cases e
    · simp at e
  -- The address is cut off in front and the size at the end.
  have back : (Text.capitalAddress address).toList ++ ':' :: (between ++
      '(' :: ((Text.decimal size).toList ++ " words)".toList)) =
      ((Text.capitalAddress address).toList ++ ':' :: between ++
        '(' :: (Text.decimal size).toList) ++ " words)".toList := by
    simp only [List.append_assoc, List.cons_append]
  rw [instruction?, text, isPrefixOf?_append]
  simp only [Option.bind_eq_bind, Option.bind_some]
  rw [List.takeWhile_append_of_pos colon, List.takeWhile_cons_of_neg (by decide), List.append_nil,
    address?_capitalAddress address, back, isSuffixOf?_append]
  simp only [Option.bind_some]
  rw [rtakeWhile_append parenthesis, Text.number?_decimal]
  rfl

/-- A message on an instruction is not one on a label. -/
lemma label?_instruction (address : Nat) (mnemonic : String) (operands : List String)
    (size : Nat) :
    label? (Event.instructionEncoded address mnemonic operands size).text = none := by
  obtain ⟨between, text⟩ := toList_text_instruction address mnemonic operands size
  rw [label?, text, Text.capitalAddress, String.toList_append]
  -- The `0` of the address stands where a label would begin.
  rfl

end Log

/-! ### Events of a scan -/

namespace Entry

/-- The events of a line at an address: first its label, then its instruction. -/
def told (address : Nat) (e : Entry) : List Event :=
  (e.line.label.toList.map fun name => .labelDefined name address) ++
    e.instruction.toList.map fun i =>
      .instructionEncoded address (e.line.mnemonic.getD "") e.line.operands i.size

/-- The events of lines of which the first stands at an address. -/
def toldFrom (address : Nat) : List Entry → List Event
  | [] => []
  | e :: es => e.told address ++ toldFrom (address + e.size) es

end Entry

namespace Scan

/-- What a scan tells of an entry comes last. -/
@[simp]
lemma add_events (s : Scan) (e : Entry) :
    (s.add e).events.toList = s.events.toList ++ e.told s.address := by
  unfold add withInstruction withLabel Entry.told
  cases e.line.label <;> cases e.instruction <;> simp [emit, record]

/-- What a scan tells of entries comes in their order. -/
lemma foldl_add_events (s : Scan) (es : List Entry) :
    (es.foldl add s).events.toList = s.events.toList ++ Entry.toldFrom s.address es := by
  induction es generalizing s with
  | nil => simp [Entry.toldFrom]
  | cons e es ih =>
    rw [List.foldl_cons, ih, add_events, add_address, List.append_assoc]
    rfl

end Scan

namespace Log

/-- Messages in a row tell what the first and the others tell. -/
lemma Tells.append {body others : List String} {instructions more : List (Nat × Nat)}
    {labels further : Labels} (first : Tells body instructions labels)
    (second : Tells others more further) :
    Tells (body ++ others) (instructions ++ more) (labels ++ further) where
  instructions := by rw [List.filterMap_append, first.instructions, second.instructions]
  labels := by rw [List.filterMap_append, first.labels, second.labels]
  others := fun line mem => (List.mem_append.1 mem).elim (first.others line) (second.others line)

lemma tells_nil : Tells [] [] [] :=
  ⟨rfl, rfl, fun _ mem => by cases mem⟩

lemma tells_label (name : String) (address : Nat) :
    Tells [(Event.labelDefined name address).text] [] [(name, (address : Int))] where
  instructions := by rw [List.filterMap_cons, instruction?_label]; rfl
  labels := by rw [List.filterMap_cons, label?_label]; rfl
  others := by
    intro line mem
    rw [List.mem_singleton.1 mem, label?_label]
    exact .inr rfl

lemma tells_instruction (address : Nat) (mnemonic : String) (operands : List String)
    (size : Nat) :
    Tells [(Event.instructionEncoded address mnemonic operands size).text] [(address, size)] [] where
  instructions := by rw [List.filterMap_cons, instruction?_instruction]; rfl
  labels := by rw [List.filterMap_cons, label?_instruction]; rfl
  others := by
    intro line mem
    rw [List.mem_singleton.1 mem, instruction?_instruction]
    exact .inl rfl

/-- A line tells its label and its instruction, both at the address of the line. -/
lemma tells_told (address : Nat) (e : Entry) :
    Tells ((e.told address).map Event.text)
      (e.instruction.toList.map fun i => (address, i.size))
      (e.line.label.toList.map fun name => (name, (address : Int))) := by
  have label : Tells ((e.line.label.toList.map fun name =>
      Event.labelDefined name address).map Event.text) []
      (e.line.label.toList.map fun name => (name, (address : Int))) := by
    cases e.line.label with
    | none => exact tells_nil
    | some name => exact tells_label name address
  have instruction : Tells ((e.instruction.toList.map fun i => Event.instructionEncoded address
      (e.line.mnemonic.getD "") e.line.operands i.size).map Event.text)
      (e.instruction.toList.map fun i => (address, i.size)) [] := by
    cases e.instruction with
    | none => exact tells_nil
    | some i => exact tells_instruction address _ _ i.size
  have both := label.append instruction
  rw [List.nil_append, List.append_nil] at both
  rw [Entry.told, List.map_append]
  exact both

/-- Lines tell their instructions, at the addresses that these have in a program, and their
labels. -/
lemma tells_toldFrom (address : Nat) (es : List Entry) :
    Tells ((Entry.toldFrom address es).map Event.text)
      ((Program.addressesFrom [] address (Entry.instructions es)).zip
        ((Entry.instructions es).map Instruction.size))
      (Entry.addresses address es) := by
  induction es generalizing address with
  | nil => exact tells_nil
  | cons e es ih =>
    have both := (tells_told address e).append (ih (address + e.size))
    rw [Entry.addresses_cons, Entry.toldFrom, List.map_append]
    convert both using 1
    -- The address moves on by the size of the instruction, if the line has one.
    rw [Entry.instructions, List.filterMap_cons, Entry.size]
    cases e.instruction with
    | none => rfl
    | some i =>
      simp only [Program.addressesFrom_cons]
      rfl

end Log

/-! ### Assemblers -/

namespace Assembler

/-- The references that are counted are those that are resolved. -/
lemma referenceCount_eq (is : List Instruction) :
    referenceCount is = (is.flatMap Instruction.located).length := by
  induction is with
  | nil => rfl
  | cons i is ih =>
    have here : i.references.length = i.located.length := by
      rw [Instruction.located, List.length_map, ← Instruction.map_snd_references, List.length_map]
    rw [List.flatMap_cons, List.length_append, ← ih, ← here]
    rfl

/-- An assembler that is verbose tells what the lines of a source tell, and the totals behind. -/
lemma events_of_ok {a : Assembler} {source : String} {p : Program} (loud : a.verbose = true)
    (ok : Dcpu.assemble source = .ok p) :
    ∃ es, (p.addresses = Program.addressesFrom [] 0 (Entry.instructions es) ∧
        p.instructions.map Instruction.size = (Entry.instructions es).map Instruction.size ∧
        p.labels = Entry.addresses 0 es) ∧
      (a.assemble source).events = .encodingStarted :: (Entry.toldFrom 0 es ++
        [.labelsCounted p.labels.length, .wordsCounted p.size, .resolvingStarted,
          .referencesResolved (references source).length,
          .instructionsCounted p.instructions.length]) := by
  obtain ⟨es, read, nodup, resolved, labels⟩ := assemble_eq_ok.1 ok
  have sizes := Instruction.map_size_of_resolveAll resolved
  refine ⟨es, ⟨Program.addressesFrom_congr sizes [] 0, sizes, labels⟩, ?_⟩
  have scanned := Scan.ofSource_eq_none.2 ⟨es, read, nodup, rfl⟩
  obtain ⟨instructions, table⟩ := Scan.foldl_add_labels es
  have count : (es.foldl Scan.add {}).table.size = p.labels.length := by
    rw [labels, ← table]
    rfl
  have size : (es.foldl Scan.add {}).address = p.size := by
    have total := (Scan.coherent_ofSource source).total
    rw [scanned] at total
    rw [total, instructions, ← sizes, Program.size_eq_sum]
  have pending : referenceCount (Entry.instructions es) = (references source).length := by
    rw [referenceCount_eq, Entry.located_of_readFrom read, references]
  -- The references are counted before the second pass fills them in.
  unfold assemble scan
  rw [scanned]
  simp only [Outcome.andThen, resolve, finish, report, loud, if_true, instructions, table, resolved,
    count, size, pending, Scan.foldl_add_events]
  simp

/-- A verbose assembler comes to the same as one that tells nothing: the same program or failure,
and all fields the same but the switch itself. If there is a program, the log of the first pass has
a line for every instruction, with its address and its size, and one for every label, with its
address, and the totals are those of the program and of the references in the source. -/
theorem verbose_only_observes (a : Assembler) (source : String) :
    let loud := { a with verbose := true }.assemble source
    let quiet := { a with verbose := false }.assemble source
    loud.result = quiet.result ∧ loud.state = { quiet.state with verbose := true } ∧
      quiet.state.verbose = false ∧ quiet.events = [] ∧
      ∀ p, loud.result = .ok p → ∃ body instructions,
        loud.events.map Event.text = Log.ofProgram source p body ∧
        Log.Tells body instructions p.labels ∧
        instructions.map Prod.fst = p.addresses ∧
        instructions.map Prod.snd = p.instructions.map Instruction.size := by
  intro loud quiet
  refine ⟨?_, ?_, ?_, ?_, ?_⟩
  · rw [result_assemble, result_assemble]
  · rw [(outcome_assemble _ source).2, (outcome_assemble _ source).2, state_scan, state_scan]
    cases Dcpu.assemble source <;> rfl
  · exact verbose_assemble _ source
  · exact events_assemble rfl source
  · intro p ok
    rw [result_assemble] at ok
    obtain ⟨es, ⟨addresses, sizes, labels⟩, events⟩ :=
      events_of_ok (a := { a with verbose := true }) rfl ok
    have lengths : p.addresses.length = (p.instructions.map Instruction.size).length := by
      rw [List.length_map]
      exact Program.length_addressesFrom 0 p.instructions
    refine ⟨(Entry.toldFrom 0 es).map Event.text,
      p.addresses.zip (p.instructions.map Instruction.size), ?_, ?_, ?_, ?_⟩
    · rw [events, List.map_cons, List.map_append]
      rfl
    · rw [addresses, sizes, labels]
      exact Log.tells_toldFrom 0 es
    · exact List.map_fst_zip lengths.le
    · exact List.map_snd_zip lengths.ge

/-- A label in front of a jump behind the end, which is a label on a line of its own. -/
theorem verbose_only_observes_forward :
    let source := "SET A, 0x30\n\n:loop SET PC, end\n:end"
    let p : Program := ⟨[⟨.ofLine 1 "SET A, 0x30", ⟨1, 0, 0x1f⟩, [.literal 0x30]⟩,
      ⟨.ofLine 3 ":loop SET PC, end", ⟨1, 0x1c, 0x1f⟩, [.literal 4]⟩], [("loop", 2), ("end", 4)]⟩
    let loud := Assembler.assemble { verbose := true } source
    loud.result = .ok p ∧ loud.events.map Event.text =
        ["=== Pass 1: Encoding instructions ===", "  0x0000: SET A, 0x30 (2 words)",
          "  Label 'loop' at 0x0002", "  0x0002: SET PC, end (2 words)", "  Label 'end' at 0x0004",
          "  Total symbols: 2", "  Program size: 4 words", "=== Pass 2: Resolving labels ===",
          "  Resolved 1 label references", "  Total instructions: 2"] ∧
      ∃ body instructions, loud.events.map Event.text = Log.ofProgram source p body ∧
        Log.Tells body instructions p.labels ∧ instructions.map Prod.fst = [0, 2] ∧
        instructions.map Prod.snd = [2, 2] := by
  intro source p loud
  have ok : loud.result = .ok p := toOption_eq_some.1 (by decide +kernel)
  obtain ⟨_, _, _, _, log⟩ := verbose_only_observes {} source
  exact ⟨ok, by decide +kernel, log p ok⟩

end Assembler

end Dcpu
