import Strongbox.Bytes
import Strongbox.Text.Quoted

/-! Hexadecimal text. Encoding writes lower case; decoding accepts both cases and
reports the leftmost byte that is no digit, after the parity of the length. -/

namespace Strongbox.Hex

/-- The lower-case digit of a number below sixteen. -/
def digit (n : Nat) : Char := Char.ofNat (if n < 10 then 48 + n else 87 + n)

/-- The two digits of a byte, high half first. -/
def pair (b : UInt8) : List Char := [digit (b.toNat / 16), digit (b.toNat % 16)]

def encode (b : Bytes) : String := String.ofList (b.flatMap pair)

inductive DecodeError where
  | oddLength
  | invalidByte (byte : UInt8) (position : Nat)
deriving DecidableEq, Repr

/-- The offending byte is shown as the character of the same number. -/
def DecodeError.message : DecodeError → String
  | .oddLength => "Odd number of digits"
  | .invalidByte byte position =>
    let shown := Text.quotedChar (Char.ofNat byte.toNat)
    s!"Invalid character {shown} at position {position}"

/-- The value of the digit with a given code, in either case. -/
def valueOfCode? (n : Nat) : Option Nat :=
  if 48 ≤ n ∧ n ≤ 57 then some (n - 48)
  else if 97 ≤ n ∧ n ≤ 102 then some (n - 87)
  else if 65 ≤ n ∧ n ≤ 70 then some (n - 55)
  else none

def value? (b : UInt8) : Option Nat := valueOfCode? b.toNat

/-- The value of the digit at a position. -/
def valueAt (position : Nat) (b : UInt8) : Except DecodeError Nat :=
  match value? b with
  | some n => .ok n
  | none => .error (.invalidByte b position)

/-- Decodes pairs of digits, the first of which stands at `position`. -/
def decodePairs (position : Nat) : Bytes → Except DecodeError Bytes
  | high :: low :: rest => do
    let h ← valueAt position high
    let l ← valueAt (position + 1) low
    let bytes ← decodePairs (position + 2) rest
    return UInt8.ofNat (16 * h + l) :: bytes
  | _ => .ok []

def decode (text : Bytes) : Except DecodeError Bytes :=
  if text.length % 2 = 1 then .error .oddLength else decodePairs 0 text

end Strongbox.Hex
