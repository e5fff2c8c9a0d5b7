import Dcpu.Text.Numeral

/-!
# Events

What an assembler tells while it works. Events are only observed: nothing depends on them.
-/

namespace Dcpu

/-- The events of an assembly. -/
inductive Event where
  | encodingStarted
  | labelDefined (name : String) (address : Nat)
  | instructionEncoded (address : Nat) (mnemonic : String) (operands : List String) (size : Nat)
  | labelsCounted (count : Nat)
  | wordsCounted (count : Nat)
  | resolvingStarted
  | referencesResolved (count : Nat)
  | instructionsCounted (count : Nat)
  | sourceOpened (name : String)
  | outputWritten (name : String)
  | message (text : String)
  deriving DecidableEq, Repr

/-- The words for an event. -/
def Event.text : Event → String
  | encodingStarted => "=== Pass 1: Encoding instructions ==="
  | labelDefined name address => s!"  Label '{name}' at {Text.capitalAddress address}"
  | instructionEncoded address mnemonic operands size =>
    let list := ", ".intercalate operands
    s!"  {Text.capitalAddress address}: {mnemonic} {list} ({Text.decimal size} words)"
  | labelsCounted count => s!"  Total symbols: {Text.decimal count}"
  | wordsCounted count => s!"  Program size: {Text.decimal count} words"
  | resolvingStarted => "=== Pass 2: Resolving labels ==="
  | referencesResolved count => s!"  Resolved {Text.decimal count} label references"
  | instructionsCounted count => s!"  Total instructions: {Text.decimal count}"
  | sourceOpened name => s!"Assembling: {name}"
  | outputWritten name => s!"Output written to: {name}"
  | message text => text

end Dcpu
