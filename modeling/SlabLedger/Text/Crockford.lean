import SlabLedger.Bytes
import SlabLedger.Text.Quote
/-!
# Crockford base-32

A byte string is written as its bits, most significant bit of the first byte first, cut into
groups of five; the last group is filled with zero bits, and each group is one symbol of the
alphabet `0123456789abcdefghjkmnpqrstvwxyz`.

Reading ignores `-`, takes either case, reads `o` as `0` and `i`, `l` as `1`. The symbols give
five bits each; whole bytes are read from the front, and what is left must be fewer than five
bits, all zero. The first character that is no symbol is named in the fault.

Both directions are one loop over their input with a 32-bit accumulator that holds the bits not
yet written: writing shifts in a byte at a time and writes every whole group of five, reading
shifts in a symbol's five bits at a time and writes a byte once eight bits are pending.
-/

namespace SlabLedger

/-- Why a text is not the Crockford form of a key or byte string. -/
inductive KeyTextFault where
  /-- A character that is neither a symbol, an alias of one, nor `-`. -/
  | badSymbol (c : Char)
  /-- Five or more bits are left after the last whole byte. -/
  | trailingSymbol
  /-- The bits left after the last whole byte are not all zero. -/
  | paddingBits
  /-- An order id read as this many bytes instead of sixteen. -/
  | wrongLength (n : Nat)
  deriving DecidableEq, Repr

/-- The text of a key text fault. -/
def KeyTextFault.message : KeyTextFault → String
  | .badSymbol c => "invalid character " ++ Text.quoteChar c
  | .trailingSymbol => "trailing symbol does not complete a byte"
  | .paddingBits => "non-zero padding bits"
  | .wrongLength n => "order id decodes to " ++ toString n ++ " bytes, expected 16"

namespace Crockford

/-- The symbols in order of value. -/
def alphabet : List Char := "0123456789abcdefghjkmnpqrstvwxyz".toList

/-- The symbol of a value below 32. -/
def symbol (v : Nat) : Char := alphabet.getD v '0'

/-- The value of a symbol, in either case and with the aliases `o`, `i` and `l`. -/
def symbolValue? (c : Char) : Option Nat :=
  let u := c.toUpper
  if u = 'O' then some 0
  else if u = 'I' ∨ u = 'L' then some 1
  else (alphabet.map Char.toUpper).idxOf? u

/-! ## The bit loops -/

/-- The state of a bit loop: what is written so far, and the `bits` pending bits in the low bits
of `acc`. -/
structure BitLoop (α : Type) where
  out : List α
  acc : UInt32
  bits : UInt32

/-- Writes the whole groups of five of the pending bits, first bits first, while at least five
are pending; gives what is written and how many bits are left. -/
def drainGroups (acc : UInt32) (out : List Char) (bits : UInt32) : List Char × UInt32 :=
  if h : 5 ≤ bits then
    drainGroups acc (out ++ [symbol ((acc >>> (bits - 5)) &&& 0x1f).toNat]) (bits - 5)
  else (out, bits)
termination_by bits.toNat
decreasing_by
  have h5 : (5 : UInt32).toNat ≤ bits.toNat := UInt32.le_iff_toNat_le.1 h
  have hfive : (5 : UInt32).toNat = 5 := rfl
  rw [UInt32.toNat_sub_of_le _ _ h]
  omega

/-- One byte of `encode`: shifted in below the pending bits, every whole group of five written,
and the written bits cleared from the accumulator. -/
def pushByte (s : BitLoop Char) (byte : UInt8) : BitLoop Char :=
  let acc := (s.acc <<< 8) ||| byte.toUInt32
  let drained := drainGroups acc s.out (s.bits + 8)
  { out := drained.1, acc := acc &&& ((1 <<< drained.2) - 1), bits := drained.2 }

/-- The Crockford form of a byte string: one lowercase symbol per five bits, the bits left at the
end filled with zero bits to a last symbol. -/
def encode (bs : Bytes) : String :=
  let s := bs.foldl pushByte ⟨[], 0, 0⟩
  String.ofList
    (if 0 < s.bits then s.out ++ [symbol ((s.acc <<< (5 - s.bits)) &&& 0x1f).toNat] else s.out)

/-- One symbol of `decode`: its five bits shifted in below the pending bits, and a byte written
once eight bits are pending. -/
def pushSymbol (s : BitLoop UInt8) (value : UInt32) : BitLoop UInt8 :=
  let acc := (s.acc <<< 5) ||| value
  let bits := s.bits + 5
  if 8 ≤ bits then
    let bits := bits - 8
    { out := s.out ++ [(acc >>> bits).toUInt8], acc := acc &&& ((1 <<< bits) - 1), bits }
  else { s with acc, bits }

/-- One character of `decode`: a dash is passed over, a symbol read, any other character
fails. -/
def readChar (s : BitLoop UInt8) (c : Char) : Except KeyTextFault (BitLoop UInt8) :=
  if c = '-' then .ok s
  else match symbolValue? c with
    | some v => .ok (pushSymbol s v.toUInt32)
    | none => .error (.badSymbol c)

/-- The bytes written by a Crockford text: fewer than five bits may be left after the last whole
byte, and they must be zero. -/
def decode (text : String) : Except KeyTextFault Bytes := do
  let s ← text.toList.foldlM readChar ⟨[], 0, 0⟩
  if 5 ≤ s.bits then throw .trailingSymbol
  if s.acc ≠ 0 then throw .paddingBits
  pure s.out

end Crockford

end SlabLedger
