import Dcpu.Assembly.Assembler
import Dcpu.Files.Tree
import Dcpu.Text.Utf8

/-!
# Sessions

An assembler together with the files it works on. A source file is read and checked to be ASCII
before the assembler changes, and an output file is opened, and so created or emptied, before the
program is serialised.
-/

namespace Dcpu

/-- Why a call of a session failed. -/
inductive SessionError where
  | failure (failure : Failure)
  | file (error : Files.Error)
  /-- The standard input is not UTF-8. -/
  | input (error : Text.Utf8.DecodeError)
  /-- The assembler holds no program. -/
  | noProgram
  deriving DecidableEq, Repr

/-- The message of an error. -/
def SessionError.message : SessionError → String
  | failure f => f.message
  | file e => e.message
  | input e => e.message
  | noProgram => "no program"

/-- An assembler and its files. -/
structure Session where
  assembler : Assembler := {}
  files : Files.Tree := {}
  deriving DecidableEq, Repr

/-- The first octet beyond ASCII and the number of its line, where octets start on a line. -/
def findNonAscii (line : Nat) : List UInt8 → Option (Nat × UInt8)
  | [] => none
  | octet :: rest =>
    if 0x80 ≤ octet.toNat then some (line, octet)
    else findNonAscii (if octet.toNat = '\n'.toNat then line + 1 else line) rest

/-- The text of a source in ASCII. -/
def decodeAscii (octets : List UInt8) : Except Failure String :=
  match findNonAscii 1 octets with
  | some (line, octet) => .error (Location.failure { line := some line } (.nonAscii octet))
  | none => .ok (String.ofList (octets.map fun octet => Char.ofNat octet.toNat))

/-- The text on the standard input. -/
def decodeInput (octets : List UInt8) : Except Text.Utf8.DecodeError String :=
  (Text.Utf8.decode octets).map fun cs => String.ofList (Text.Utf8.unifyNewlines cs)

namespace Assembler

/-- The program that an assembler holds. -/
def currentProgram (a : Assembler) : Except SessionError Program :=
  a.program.elim (.error .noProgram) .ok

/-- The listing of the program. -/
def listing (a : Assembler) : Except SessionError String := do
  (← a.currentProgram).listing.mapError .failure

/-- The words of the program in hexadecimal, one to a line. -/
def hexDump (a : Assembler) : Except SessionError String := do
  (← a.currentProgram).hexDump.mapError .failure

/-- The octets of the program. -/
def bytes (a : Assembler) : Except SessionError (List UInt8) := do
  (← a.currentProgram).bytes.mapError .failure

end Assembler

namespace Session

/-- Reads a source file. -/
def load (s : Session) (name : String) : Outcome Session SessionError String where
  state := s
  events := s.assembler.report [.sourceOpened name]
  result := do
    let octets ← (s.files.read name).mapError .file
    (decodeAscii octets).mapError .failure

/-- Assembles a source. -/
def assemble (s : Session) (source : String) : Outcome Session SessionError Program :=
  (s.assembler.assemble source).lift (fun assembler => { s with assembler }) .failure

/-- Writes the program to a file. -/
def write (s : Session) (name : String) : Outcome Session SessionError Unit :=
  match s.files.write name [] with
  | .error e => { state := s, result := .error (.file e) }
  | .ok emptied =>
    match s.assembler.bytes with
    | .error e => { state := { s with files := emptied }, result := .error e }
    | .ok octets =>
      match emptied.write name octets with
      | .error e => { state := { s with files := emptied }, result := .error (.file e) }
      | .ok files => { state := { s with files }, result := .ok () }

/-- Writes the program to a file and tells so. -/
def writeAloud (s : Session) (name : String) : Outcome Session SessionError Unit :=
  (s.write name).andThen fun s () =>
    { state := s, events := s.assembler.report [.outputWritten name], result := .ok () }

/-- Assembles a source file and writes the program to an output file, if one is named. An empty name
names none. -/
def assembleFile (s : Session) (name : String) (output : Option String) :
    Outcome Session SessionError Program :=
  (s.load name).andThen fun s source => (s.assemble source).andThen fun s program =>
    match output.filter (!·.isEmpty) with
    | none => { state := s, result := .ok program }
    | some output => (s.writeAloud output).andThen fun s () =>
      { state := s, result := .ok program }

end Session

end Dcpu
