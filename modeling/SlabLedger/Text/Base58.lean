import SlabLedger.Bytes
/-!
# Base-58 byte strings

A byte string is written as one `1` per leading zero byte, then the base-58 digits of the
big-endian value of the rest, most significant first, over the alphabet
`123456789ABCDEFGHJKLMNPQRSTUVWXYZabcdefghijkmnopqrstuvwxyz` (no `0`, `O`, `I` or `l`).

Reading works on the UTF-8 bytes of the text: each leading `1` gives a zero byte, and the rest
gives the fewest big-endian bytes of its value. The first byte that is no digit is the fault.

Both directions convert between bases with one carry loop: the digits built so far, least
significant first, are multiplied by the other base and the new digit or byte is added, with a
32-bit carry passed from each digit to the next.
-/

namespace SlabLedger.Base58

/-- The digits in order of value. -/
def alphabet : List Char :=
  "123456789ABCDEFGHJKLMNPQRSTUVWXYZabcdefghijkmnopqrstuvwxyz".toList

/-- The radix of a carry loop: digits in base `base`, each pass multiplying them by `mult`. -/
structure Radix where
  base : UInt32
  mult : UInt32
  one_lt_base : 1 < base

theorem one_lt_58 : (1 : UInt32) < 58 := by decide

theorem one_lt_256 : (1 : UInt32) < 256 := by decide

/-- Writing: base-58 digits, multiplied by 256 for each byte. -/
def Radix.write : Radix := ⟨58, 256, one_lt_58⟩

/-- Reading: bytes, multiplied by 58 for each digit. -/
def Radix.read : Radix := ⟨256, 58, one_lt_256⟩

/-- One pass of a carry loop over little-endian digits, least significant first: each digit
becomes the low part of `carry + digit * mult` and the rest is carried on. Gives the new digits
and the carry left over. -/
def carryThrough (r : Radix) : List UInt8 → UInt32 → List UInt8 × UInt32
  | [], carry => ([], carry)
  | d :: ds, carry =>
    let carry := carry + d.toUInt32 * r.mult
    let rest := carryThrough r ds (carry / r.base)
    ((carry % r.base).toUInt8 :: rest.1, rest.2)

/-- The digits of a carry left over, least significant first, pushed while it is not zero. -/
def spill (r : Radix) (carry : UInt32) : List UInt8 :=
  if carry = 0 then [] else (carry % r.base).toUInt8 :: spill r (carry / r.base)
termination_by carry.toNat
decreasing_by
  have hbase : 1 < r.base.toNat := UInt32.lt_iff_toNat_lt.1 r.one_lt_base
  have hpos : 0 < carry.toNat := by
    rcases Nat.eq_zero_or_pos carry.toNat with h | h
    · exact absurd (UInt32.toNat_inj.1 (by rw [h]; rfl)) ‹¬carry = 0›
    · exact h
  rw [UInt32.toNat_div]
  exact Nat.div_lt_self hpos hbase

/-- Little-endian digits multiplied by the radix's `mult`, plus `carry`: the carry pass, then the
digits of what is left over. -/
def carryIn (r : Radix) (digits : List UInt8) (carry : UInt32) : List UInt8 :=
  let pass := carryThrough r digits carry
  pass.1 ++ spill r pass.2

/-- The base-58 form of a byte string: a `1` per leading zero byte, then the digits of the rest,
most significant first. The digits are built least significant first, one byte at a time. -/
def encode (bs : Bytes) : String :=
  let zeros := (bs.takeWhile (· == 0)).length
  let digits := (bs.drop zeros).foldl (fun ds b => carryIn Radix.write ds b.toUInt32) []
  String.ofList (List.replicate zeros '1' ++ digits.reverse.map fun d => alphabet.getD d.toNat '1')

/-- The value of one digit byte. -/
def digitValue? (b : UInt8) : Option Nat :=
  alphabet.idxOf? (Char.ofNat b.toNat)

/-- One byte of a text after its leading `1`s: a digit is multiplied in, any other byte fails. -/
def readDigit (bytes : List UInt8) (b : UInt8) : Except UInt8 (List UInt8) :=
  match digitValue? b with
  | some v => .ok (carryIn Radix.read bytes v.toUInt32)
  | none => .error b

/-- The bytes of a base-58 text, or the first byte of its UTF-8 form that is no digit. The bytes
are built least significant first, one digit at a time. -/
def decode (s : String) : Except UInt8 Bytes := do
  let raw := Bytes.ofText s
  let zeros := (raw.takeWhile (· == 49)).length
  let bytes ← (raw.drop zeros).foldlM readDigit []
  pure (List.replicate zeros 0 ++ bytes.reverse)

end SlabLedger.Base58
