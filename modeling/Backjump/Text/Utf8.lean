import Backjump.Text.Numeral
import Backjump.Text.Quoted

/-! UTF-8, strictly: no overlong forms, no surrogates, nothing above the last
scalar value. A fault names the bytes it concerns: a byte that begins nothing,
the part of a character in front of a byte that cannot continue it, or the
part of a character that the end of the data cuts off. -/
namespace Backjump.Text.Utf8

inductive Reason where
  | invalidStart
  | invalidContinuation
  | unexpectedEnd
  deriving DecidableEq

/-- The bytes `first` up to and without `past`; `byte` is the one at `first`. -/
structure Fault where
  byte : Nat
  first : Nat
  past : Nat
  reason : Reason
  deriving DecidableEq

def Reason.message : Reason → String
  | invalidStart => "invalid start byte"
  | invalidContinuation => "invalid continuation byte"
  | unexpectedEnd => "unexpected end of data"

def Fault.message (f : Fault) : String :=
  let place :=
    if f.past ≤ f.first + 1 then
      "byte 0x" ++ hexadecimal 2 f.byte ++ " in position " ++ numeral f.first
    else "bytes in position " ++ numeral f.first ++ "-" ++ numeral (f.past - 1)
  "'utf-8' codec can't decode " ++ place ++ ": " ++ f.reason.message

/-- A character of which some bytes have been read: the next must lie between
`low` and `high`, and `wanted` more are due. -/
structure Pending where
  lead : Nat
  start : Nat
  seen : Nat
  wanted : Nat
  low : Nat
  high : Nat
  value : Nat

/-- What a byte of 128 or more begins. -/
def Pending.ofLead? (position byte : Nat) : Option Pending :=
  if 0xc2 ≤ byte ∧ byte ≤ 0xdf then
    some ⟨byte, position, 1, 1, 0x80, 0xbf, byte - 0xc0⟩
  else if 0xe0 ≤ byte ∧ byte ≤ 0xef then
    some ⟨byte, position, 1, 2, if byte = 0xe0 then 0xa0 else 0x80,
      if byte = 0xed then 0x9f else 0xbf, byte - 0xe0⟩
  else if 0xf0 ≤ byte ∧ byte ≤ 0xf4 then
    some ⟨byte, position, 1, 3, if byte = 0xf0 then 0x90 else 0x80,
      if byte = 0xf4 then 0x8f else 0xbf, byte - 0xf0⟩
  else none

def Pending.fault (p : Pending) (reason : Reason) : Fault :=
  ⟨p.lead, p.start, p.start + p.seen, reason⟩

def decodeFrom (position : Nat) : Option Pending → List Nat → Except Fault (List Char)
  | none, [] => .ok []
  | some p, [] => .error (p.fault .unexpectedEnd)
  | none, byte :: rest =>
    if byte < 0x80 then (decodeFrom (position + 1) none rest).map (Char.ofNat byte :: ·)
    else
      match Pending.ofLead? position byte with
      | none => .error ⟨byte, position, position + 1, .invalidStart⟩
      | some p => decodeFrom (position + 1) (some p) rest
  | some p, byte :: rest =>
    if p.low ≤ byte ∧ byte ≤ p.high then
      let value := p.value * 64 + (byte - 0x80)
      if p.wanted ≤ 1 then (decodeFrom (position + 1) none rest).map (Char.ofNat value :: ·)
      else
        decodeFrom (position + 1)
          (some { p with seen := p.seen + 1, wanted := p.wanted - 1, low := 0x80, high := 0xbf,
                         value := value }) rest
    else .error (p.fault .invalidContinuation)

def decode (bytes : List Nat) : Except Fault (List Char) := decodeFrom 0 none bytes

end Backjump.Text.Utf8
