import SlabLedger.Bytes
import SlabLedger.Text.Quote
/-!
# Hexadecimal byte strings

Bytes are written as two lowercase hexadecimal digits each, most significant digit first.
Reading accepts either case, refuses a text of odd length before looking at its digits, and
otherwise names the first byte of the text that is not a digit, with its position.
-/

namespace SlabLedger.Hex

/-- The lowercase hexadecimal digit of a value below 16. -/
def digit (n : Nat) : Char :=
  if n < 10 then Char.ofNat (48 + n) else Char.ofNat (87 + n)

/-- Two lowercase digits per byte. -/
def encode (bs : Bytes) : String :=
  String.ofList (bs.flatMap fun b => [digit (b.toNat / 16), digit (b.toNat % 16)])

/-- Why a text is not a hexadecimal byte string. -/
inductive HexFault where
  /-- The text has an odd number of bytes. -/
  | oddLength
  /-- The byte at `index` is no hexadecimal digit; it is shown as the character of that code. -/
  | badDigit (byte : UInt8) (index : Nat)
  deriving DecidableEq, Repr

/-- The text of a hexadecimal fault. -/
def HexFault.message : HexFault → String
  | .oddLength => "Odd number of digits"
  | .badDigit b i => "Invalid character " ++ Text.quoteChar (Char.ofNat b.toNat) ++
      " at position " ++ toString i

/-- The value of one hexadecimal digit byte, in either case. -/
def digitValue? (b : UInt8) : Option Nat :=
  let n := b.toNat
  if 48 ≤ n ∧ n ≤ 57 then some (n - 48)
  else if 65 ≤ n ∧ n ≤ 70 then some (n - 55)
  else if 97 ≤ n ∧ n ≤ 102 then some (n - 87)
  else none

/-- Reads digit pairs from byte `index` on; the length is even. -/
def decodePairs (index : Nat) : Bytes → Except HexFault Bytes
  | hi :: lo :: rest => do
    let h ← (digitValue? hi).elim (.error (.badDigit hi index)) .ok
    let l ← (digitValue? lo).elim (.error (.badDigit lo (index + 1))) .ok
    let tail ← decodePairs (index + 2) rest
    pure ((16 * h + l).toUInt8 :: tail)
  | _ => pure []

/-- Reads the bytes written by a hexadecimal text. -/
def decode (s : String) : Except HexFault Bytes :=
  let raw := Bytes.ofText s
  if raw.length % 2 = 1 then .error .oddLength else decodePairs 0 raw

end SlabLedger.Hex
