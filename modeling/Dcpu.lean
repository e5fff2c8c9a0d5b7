import Dcpu.Assembly.Assembler
import Dcpu.Assembly.Event
import Dcpu.Assembly.Outcome
import Dcpu.Assembly.Scan
import Dcpu.Assembly.Session
import Dcpu.Code.Decoding
import Dcpu.Code.Draft
import Dcpu.Code.Encoding
import Dcpu.Code.Instruction
import Dcpu.Code.LabelTable
import Dcpu.Code.Labels
import Dcpu.Code.Program
import Dcpu.Command.Argument
import Dcpu.Command.Options
import Dcpu.Command.Run
import Dcpu.Command.Switch
import Dcpu.Command.Usage
import Dcpu.Diagnostic
import Dcpu.Files.Tree
import Dcpu.Machine.Operation
import Dcpu.Machine.Register
import Dcpu.Machine.Word
import Dcpu.Main
import Dcpu.Proofs.Acceptance
import Dcpu.Proofs.Addresses
import Dcpu.Proofs.Aftermath
import Dcpu.Proofs.Arguments
import Dcpu.Proofs.Ascii
import Dcpu.Proofs.Assembling
import Dcpu.Proofs.Classification
import Dcpu.Proofs.Consistency
import Dcpu.Proofs.Construction
import Dcpu.Proofs.Decoding
import Dcpu.Proofs.Definitions
import Dcpu.Proofs.Delivery
import Dcpu.Proofs.Drafting
import Dcpu.Proofs.Emission
import Dcpu.Proofs.Encoding
import Dcpu.Proofs.FailedRun
import Dcpu.Proofs.Files
import Dcpu.Proofs.Filling
import Dcpu.Proofs.FirstDefinition
import Dcpu.Proofs.FirstFault
import Dcpu.Proofs.Forms
import Dcpu.Proofs.Grammar
import Dcpu.Proofs.Layout
import Dcpu.Proofs.Lines
import Dcpu.Proofs.Listing
import Dcpu.Proofs.Literals
import Dcpu.Proofs.Log
import Dcpu.Proofs.Octets
import Dcpu.Proofs.Operands
import Dcpu.Proofs.Packing
import Dcpu.Proofs.Places
import Dcpu.Proofs.Printout
import Dcpu.Proofs.ReadBack
import Dcpu.Proofs.Recognition
import Dcpu.Proofs.References
import Dcpu.Proofs.Relocation
import Dcpu.Proofs.Renaming
import Dcpu.Proofs.Resolution
import Dcpu.Proofs.Results
import Dcpu.Proofs.RoundTrip
import Dcpu.Proofs.Runs
import Dcpu.Proofs.Scanning
import Dcpu.Proofs.Serialising
import Dcpu.Proofs.StandardInput
import Dcpu.Proofs.Streams
import Dcpu.Proofs.Words
import Dcpu.Source.Line
import Dcpu.Source.Literal
import Dcpu.Source.Operand
import Dcpu.Source.Tokens
import Dcpu.Text.Blank
import Dcpu.Text.Digit
import Dcpu.Text.Numeral
import Dcpu.Text.Printable
import Dcpu.Text.Quoted
import Dcpu.Text.Utf8
