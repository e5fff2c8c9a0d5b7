import Dcpu.Assembly.Event
import Dcpu.Code.Encoding
import Dcpu.Code.LabelTable

/-!
# Scanning a source

The first pass over a source. Line by line it defines the labels at the address reached so far and
encodes the instructions, which move the address on by their size. References to labels stay open.

A scan stops at the first line that cannot be processed. What the lines before it have added stays,
and so does the label of that line if the fault is in its instruction.
-/

namespace Dcpu

open Source (Line)

/-- The labels and instructions of the lines scanned so far, and the address behind them. -/
structure Scan where
  table : LabelTable := {}
  instructions : Array Instruction := #[]
  address : Nat := 0
  events : Array Event := #[]
  deriving DecidableEq, Repr

namespace Scan

/-- Adds an event. -/
def record (s : Scan) (event : Event) : Scan :=
  { s with events := s.events.push event }

/-- Defines the label of a line, if it has one, at the present address. -/
def define (s : Scan) (line : Line) : Scan × Option Failure :=
  match line.label with
  | none => (s, none)
  | some name =>
    match s.table.define name s.address line.location with
    | .error failure => (s, some failure)
    | .ok table => ({ s with table }.record (.labelDefined name s.address), none)

/-- Adds an instruction, which comes from a mnemonic and operands, at the present address. -/
def emit (s : Scan) (mnemonic : String) (operands : List String) (i : Instruction) : Scan :=
  { s with instructions := s.instructions.push i, address := s.address + i.size }.record
    (.instructionEncoded s.address mnemonic operands i.size)

/-- Encodes the instruction of a line, if it has one. -/
def encode (s : Scan) (line : Line) : Scan × Option Failure :=
  match line.mnemonic with
  | none => (s, none)
  | some mnemonic =>
    match line.encode with
    | .error failure => (s, some failure)
    | .ok i => (s.emit mnemonic line.operands i, none)

/-- Scans one line: the state after it, and what is wrong with it. -/
def line (s : Scan) (number : Nat) (text : String) : Scan × Option Failure :=
  match Line.parse text (some number) with
  | .error failure => (s, some failure)
  | .ok line =>
    match s.define line with
    | (s, some failure) => (s, some failure)
    | (s, none) => s.encode line

/-- Scans lines of which the first has a number, up to the first fault. -/
def run (s : Scan) (number : Nat) : List String → Scan × Option Failure
  | [] => (s, none)
  | text :: rest =>
    match s.line number text with
    | (s, none) => s.run (number + 1) rest
    | (s, some failure) => (s, some failure)

/-- Scans a source. -/
def ofSource (source : String) : Scan × Option Failure :=
  run {} 1 (Source.lines source)

end Scan

end Dcpu
