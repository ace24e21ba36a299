import SlabLedger.Bytes
/-!
# Base-64 text

Account dumps may be stored as base-64 text over the standard alphabet
`A–Z a–z 0–9 + /`, in groups of four symbols, the last group filled up with `=`. Reading is
strict: a byte outside the alphabet (or a `=` before the final padding) is named with its
offset, a lone symbol in the last group is a length fault, padding must complete the last group
exactly, and the bits after the last whole byte must be zero.
-/

namespace SlabLedger.Base64

/-- Why a text is not strict base 64. -/
inductive Base64Fault where
  | badByte (offset : Nat) (byte : UInt8)
  | badLength (symbols : Nat)
  | badLastSymbol (offset : Nat) (byte : UInt8)
  | badPadding
  deriving DecidableEq, Repr

/-- The text of a base-64 fault. -/
def Base64Fault.message : Base64Fault → String
  | .badByte i b => "Invalid symbol " ++ toString b.toNat ++ ", offset " ++ toString i ++ "."
  | .badLength n => "Invalid input length: " ++ toString n
  | .badLastSymbol i b =>
    "Invalid last symbol " ++ toString b.toNat ++ ", offset " ++ toString i ++ "."
  | .badPadding => "Invalid padding"

/-- The six-bit value of a symbol. -/
def symbolValue? (b : UInt8) : Option Nat :=
  let n := b.toNat
  if 65 ≤ n ∧ n ≤ 90 then some (n - 65)
  else if 97 ≤ n ∧ n ≤ 122 then some (n - 71)
  else if 48 ≤ n ∧ n ≤ 57 then some (n + 4)
  else if n = 43 then some 62
  else if n = 47 then some 63
  else none

/-- The values of the symbols from `offset` on, after those in `acc` (reversed), or the first
byte that is no symbol. -/
def symbolValues (offset : Nat) (acc : List Nat) : Bytes → Except Base64Fault (List Nat)
  | [] => .ok acc.reverse
  | b :: rest =>
    match symbolValue? b with
    | some v => symbolValues (offset + 1) (v :: acc) rest
    | none => .error (.badByte offset b)

/-- The bytes of groups of four six-bit values, after those in `acc` (reversed); a last group of
two or three values gives one or two bytes. -/
def groupBytes (acc : Bytes) : List Nat → Bytes
  | a :: b :: c :: d :: rest =>
    let v := ((a * 64 + b) * 64 + c) * 64 + d
    groupBytes ((v % 256).toUInt8 :: (v / 256 % 256).toUInt8 :: (v / 65536).toUInt8 :: acc) rest
  | [a, b, c] =>
    let v := ((a * 64 + b) * 64 + c) / 4
    ((v % 256).toUInt8 :: (v / 256).toUInt8 :: acc).reverse
  | [a, b] => ((((a * 64 + b) / 16).toUInt8) :: acc).reverse
  | _ => acc.reverse

/-- The bits of the last symbol that no byte takes: four of two symbols, two of three. -/
def spareBits (values : List Nat) : Nat :=
  match values.length % 4, values.getLast? with
  | 2, some v => v % 16
  | 3, some v => v % 4
  | _, _ => 0

/-- The bytes a strict base-64 text stands for. -/
def decode (input : Bytes) : Except Base64Fault Bytes := do
  let pads := min 2 ((input.reverse.takeWhile (· == 61)).length)
  let body := input.take (input.length - pads)
  let values ← symbolValues 0 [] body
  let n := values.length
  if n % 4 = 1 then throw (.badLength n)
  if (n + pads) % 4 ≠ 0 then throw .badPadding
  if spareBits values ≠ 0 then throw (.badLastSymbol (n - 1) (body.getLast?.getD 0))
  pure (groupBytes [] values)

end SlabLedger.Base64
