import Dcpu.Text.Numeral

/-!
# Decoding UTF-8

A strict decoder that reads one octet at a time and says where and why a text is not UTF-8.
`decode` gives the characters, and `unifyNewlines` turns the three spellings of a line break into
the line feed.
-/

namespace Dcpu.Text.Utf8

/-- Why octets are not the code of a character. -/
inductive Reason where
  | invalidStart
  | invalidContinuation
  | unexpectedEnd
  deriving DecidableEq, Repr

/-- The words for a reason. -/
def Reason.message : Reason → String
  | .invalidStart => "invalid start byte"
  | .invalidContinuation => "invalid continuation byte"
  | .unexpectedEnd => "unexpected end of data"

/-- The first place where octets are not UTF-8: the octets from `position` on, `length` of them,
begin with `first` and are no character. -/
structure DecodeError where
  reason : Reason
  position : Nat
  first : UInt8
  length : Nat
  deriving DecidableEq, Repr

/-- The message of a decoding error; a single octet is shown, several are given by position. -/
def DecodeError.message (e : DecodeError) : String :=
  let place :=
    if e.length = 1 then s!"byte 0x{hex 2 e.first.toNat} in position {decimal e.position}"
    else s!"bytes in position {decimal e.position}-{decimal (e.position + e.length - 1)}"
  s!"'utf-8' codec can't decode {place}: {e.reason.message}"

/-- A character of several octets of which some have been read: where it starts, what its octets so
far say, how many are owed, and the range in which the next one has to lie. -/
structure Pending where
  position : Nat
  first : UInt8
  read : Nat
  owed : Nat
  low : Nat
  high : Nat
  value : Nat

/-- What a first octet announces: a character of its own, or the start of a longer one. -/
def start? (position : Nat) (octet : UInt8) : Option (Char ⊕ Pending) :=
  let b := octet.toNat
  let longer (owed low high value : Nat) : Option (Char ⊕ Pending) :=
    some (.inr { position, first := octet, read := 1, owed, low, high, value })
  if b < 0x80 then some (.inl (Char.ofNat b))
  else if b < 0xc2 then none
  else if b < 0xe0 then longer 1 0x80 0xbf (b - 0xc0)
  else if b = 0xe0 then longer 2 0xa0 0xbf 0
  else if b = 0xed then longer 2 0x80 0x9f 0xd
  else if b < 0xf0 then longer 2 0x80 0xbf (b - 0xe0)
  else if b = 0xf0 then longer 3 0x90 0xbf 0
  else if b = 0xf4 then longer 3 0x80 0x8f 4
  else if b < 0xf4 then longer 3 0x80 0xbf (b - 0xf0)
  else none

/-- The decoder: the position of the next octet, the character under way, and the characters read,
the last one first. -/
def decodeFrom : Nat → Option Pending → List Char → List UInt8 → Except DecodeError (List Char)
  | _, none, done, [] => .ok done.reverse
  | _, some p, _, [] => .error ⟨.unexpectedEnd, p.position, p.first, p.read⟩
  | pos, none, done, octet :: rest =>
    match start? pos octet with
    | none => .error ⟨.invalidStart, pos, octet, 1⟩
    | some (.inl c) => decodeFrom (pos + 1) none (c :: done) rest
    | some (.inr p) => decodeFrom (pos + 1) (some p) done rest
  | pos, some p, done, octet :: rest =>
    let b := octet.toNat
    if p.low ≤ b ∧ b ≤ p.high then
      let value := p.value * 64 + (b - 0x80)
      if p.owed ≤ 1 then decodeFrom (pos + 1) none (Char.ofNat value :: done) rest
      else
        let p := { p with read := p.read + 1, owed := p.owed - 1, low := 0x80, high := 0xbf, value }
        decodeFrom (pos + 1) (some p) done rest
    else .error ⟨.invalidContinuation, p.position, p.first, p.read⟩

/-- The characters that octets encode, or the first place where they encode none. -/
def decode (octets : List UInt8) : Except DecodeError (List Char) :=
  decodeFrom 0 none [] octets

/-- Drops the line feed of a carriage return that came just before it. -/
def unifyFrom : Bool → List Char → List Char → List Char
  | _, done, [] => done.reverse
  | afterReturn, done, c :: rest =>
    if c = '\r' then unifyFrom true ('\n' :: done) rest
    else if c = '\n' ∧ afterReturn = true then unifyFrom false done rest
    else unifyFrom false (c :: done) rest

/-- A text in which a carriage return, alone or with a line feed after it, is a line feed. -/
def unifyNewlines (cs : List Char) : List Char :=
  unifyFrom false [] cs

end Dcpu.Text.Utf8
