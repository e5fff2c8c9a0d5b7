import Dcpu.Proofs.Arguments
import Dcpu.Proofs.Delivery
import Dcpu.Proofs.Listing
import Dcpu.Proofs.Words

/-!
# The listing and the output file

A run that ends without an error has printed the listing of the program whose octets are in the
output file. The listing shows the words of the octets (`Listing.shows_of_bytes`), and no other file
has changed (`Command.printout_of_run`).
-/

namespace Dcpu
open Results

/-- Tells whether the words of octets can be read off a listing, each written in exactly four
hexadecimal digits. -/
def Listing.Shows (listing : String) (octets : List UInt8) : Prop :=
  ∃ entries words, read? listing = some entries ∧ bytesToWords octets = .ok words ∧
    List.Forall₂ Text.WritesWord (entries.flatMap Entry.words) words

lemma Listing.shows_of_bytes {p : Program} {listing : String} {octets : List UInt8}
    (listed : p.listing = .ok listing) (fits : p.bytes = .ok octets) : Shows listing octets := by
  obtain ⟨entries, read, written⟩ := read?_listing listed
  obtain ⟨words, known, serialised⟩ := bind_eq_ok.1 fits
  obtain ⟨each, rfl⟩ := wordsToBytes_eq_ok.1 serialised
  refine ⟨entries, words, read, bytesToWords_flatMap_octets each, ?_⟩
  rw [words_of_entries known written, List.forall₂_map_left_iff, List.forall₂_same]
  exact fun word mem => Text.writesWord_hex (each word mem)

namespace Command

lemma Options.printed_eq_ok {o : Options} {p : Program} {text : String} (loud : o.quiet = false) :
    o.printed p = .ok text ↔ ∃ listing, p.listing = .ok listing ∧ listing ++ "\n" = text := by
  rw [printed, if_neg (by rw [loud]; exact Bool.false_ne_true), map_eq_ok]
  simp only [mapError_eq_ok]

/-- A run without an error that has an output file and prints the listing: the listing shows the
words of the output file, and all other files are as they were. -/
theorem printout_of_run {files : Files.Tree} {input : List UInt8} {arguments : List String}
    {report : Report} {o : Options} {target : String}
    (ran : run files input arguments = .ok report) (success : report.exit = 0)
    (request : Request.ofArguments arguments = .ok (.run o)) (named : o.target = some target)
    (loud : o.quiet = false) :
    ∃ source p listing path octets,
      o.source files input = .ok source ∧ assemble source = .ok p ∧ p.listing = .ok listing ∧
      report.output = listing ++ "\n" ∧
      report.files.find target = .ok (.occupied path (.file octets)) ∧
      Listing.Shows listing octets ∧
      ∀ other, other ≠ path → report.files.node? other = files.node? other := by
  have reported : report = o.report files input := by
    rcases report_of_run request ran with reported | ⟨failed, _⟩
    · exact reported
    · rw [failed] at success
      cases success
  rw [Options.report_eq (output_ne_empty request)] at reported
  have after := Options.files_reportOf o (o.told files input)
    (deliver files o.target (o.source files input))
  have delivery := delivery_deliver files o.target (o.source files input)
  rw [reported] at success
  obtain ⟨p, made, printed⟩ := Options.exit_reportOf success
  rw [← reported] at after printed
  rw [made, ← after] at delivery
  obtain ⟨listing, listed, text⟩ := (Options.printed_eq_ok loud).1 printed
  generalize report.files = final at delivery ⊢
  cases delivery with
  | kept _ _ unnamed =>
    rw [named] at unnamed
    cases unnamed
  | @written source name _ octets _ read assembled isTarget fits filled =>
    rw [named] at isTarget
    cases isTarget
    obtain ⟨path, opens, rfl⟩ := Files.Tree.write_eq_ok.1 filled
    refine ⟨source, p, listing, path, octets, read, assembled, listed, text.symm,
      opens.find_put octets, Listing.shows_of_bytes listed fits, ?_⟩
    exact fun other ne => Files.Tree.node?_put_of_ne ne files _

/-- A source in a file, with an output file that is there already and another file. -/
theorem printout_of_run_named :
    let source : List UInt8 := "SET A, 0x30\n:x SET PC, x\n".toList.map fun c => .ofNat c.toNat
    let files : Files.Tree :=
      .ofEntries [] [("prog.s", source), ("a.bin", [0x2a]), ("notes", [0x78])]
    let report : Report := {
      output := "1: 7c01 0030\n2: 7dc1 0002\n"
      files := .ofEntries [] [("prog.s", source),
        ("a.bin", [0x7c, 0x01, 0x00, 0x30, 0x7d, 0xc1, 0x00, 0x02]), ("notes", [0x78])] }
    let o : Options := { input := "prog.s", output := some "a.bin" }
    run files [] ["-o", "a.bin", "prog.s"] = .ok report ∧ report.exit = 0 ∧
      Request.ofArguments ["-o", "a.bin", "prog.s"] = .ok (.run o) ∧
      o.target = some "a.bin" ∧ o.quiet = false ∧
      ∃ source p listing path octets,
        o.source files [] = .ok source ∧ assemble source = .ok p ∧ p.listing = .ok listing ∧
        report.output = listing ++ "\n" ∧
        report.files.find "a.bin" = .ok (.occupied path (.file octets)) ∧
        Listing.Shows listing octets ∧
        ∀ other, other ≠ path → report.files.node? other = files.node? other := by
  intro source files report o
  have ran : run files [] ["-o", "a.bin", "prog.s"] = .ok report :=
    toOption_eq_some.1 (by decide +kernel)
  have settings : Settings ["-o", "a.bin"] [.output "a.bin"] :=
    .cons (.next (by decide) (by decide)) .nil
  have request : Request.ofArguments ["-o", "a.bin", "prog.s"] = .ok (.run o) := by
    apply Request.ofArguments_named settings .nil
    · simp
    · decide
  have named : o.target = some "a.bin" := by decide +kernel
  exact ⟨ran, rfl, request, named, rfl, printout_of_run ran rfl request named rfl⟩

end Command

end Dcpu
