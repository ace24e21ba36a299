/-!
# Byte strings

A byte string is a list of bytes, first byte first. Words on the wire are little-endian: the
first byte is the least significant. This module holds the conversions between numbers and
byte strings, and a length test that looks at no more of a string than it needs.
-/

namespace SlabLedger

/-- A byte string, first byte first. -/
abbrev Bytes := List UInt8

namespace Bytes

/-- The value of a little-endian byte string: the first byte is the least significant. -/
def leValue : Bytes → Nat
  | [] => 0
  | b :: rest => b.toNat + 256 * leValue rest

/-- The value of a big-endian byte string: the first byte is the most significant. -/
def beValue (bs : Bytes) : Nat := leValue bs.reverse

/-- The `width` low bytes of `n`, least significant first. -/
def leBytes (n : Nat) : (width : Nat) → Bytes
  | 0 => []
  | w + 1 => (n % 256).toUInt8 :: leBytes (n / 256) w

/-- The fewest big-endian bytes that hold `n`: none for zero. -/
def minimalBe (n : Nat) : Bytes :=
  if n = 0 then [] else minimalBe (n / 256) ++ [(n % 256).toUInt8]
decreasing_by omega

/-- Whether `bs` holds at least `n` bytes; it walks at most `n` cells of the list. -/
def hasAtLeast : Nat → Bytes → Bool
  | 0, _ => true
  | _ + 1, [] => false
  | n + 1, _ :: rest => hasAtLeast n rest

/-- The bytes of the UTF-8 encoding of a text. -/
def ofText (s : String) : Bytes := s.toList.flatMap String.utf8EncodeChar

@[simp]
theorem hasAtLeast_eq (n : Nat) (bs : Bytes) : hasAtLeast n bs = decide (n ≤ bs.length) := by
  induction n generalizing bs with
  | zero => simp [hasAtLeast]
  | succ n ih => cases bs <;> simp [hasAtLeast, ih]

/-- Input that has at least `n` bytes gives exactly `n` when `n` are taken. -/
theorem length_take_of_hasAtLeast {n : Nat} {bs : Bytes} (h : hasAtLeast n bs = true) :
    (bs.take n).length = n := by
  rw [hasAtLeast_eq, decide_eq_true_eq] at h
  rw [List.length_take]
  omega

@[simp]
theorem length_leBytes (n w : Nat) : (leBytes n w).length = w := by
  induction w generalizing n with
  | zero => rfl
  | succ w ih => simp [leBytes, ih]

end Bytes

end SlabLedger
