import SlabLedger.Fault
/-!
# Decoders

A decoder reads values from the front of a byte string and keeps the unread rest, so a decoder
run is an offset moving through its input. A read of `w` bytes succeeds exactly when at least
`w` bytes remain; otherwise it fails with both counts and leaves the input where it was. Words
are little-endian, a boolean is a byte that is true when it is not zero, and a signed word is
read in two's complement.
-/

namespace SlabLedger

/-- A reader of values from the front of a byte string; the state is the unread rest. -/
abbrev Decoder (α : Type) := StateT Bytes (Except Fault) α

namespace Decoder

/-- The fault of a read of `n` bytes from `rest`. -/
def shortBy (n : Nat) (rest : Bytes) : Fault := .truncated n rest.length

/-- The next `n` bytes. -/
def take (n : Nat) : Decoder Bytes := fun rest =>
  if Bytes.hasAtLeast n rest then .ok (rest.take n, rest.drop n) else .error (shortBy n rest)

/-- Passes over the next `n` bytes. -/
def skip (n : Nat) : Decoder Unit := fun rest =>
  if Bytes.hasAtLeast n rest then .ok ((), rest.drop n) else .error (shortBy n rest)

/-- The number of unread bytes. -/
def remaining : Decoder Nat := fun rest => .ok (rest.length, rest)

/-- The unread bytes, left unread. -/
def peekRest : Decoder Bytes := fun rest => .ok (rest, rest)

/-- The little-endian value of the next `w` bytes. -/
def word (w : Nat) : Decoder Nat := Bytes.leValue <$> take w

/-- The next byte. -/
def u8 : Decoder UInt8 := UInt8.ofNat <$> word 1

/-- The next byte as a truth value: true when it is not zero. -/
def bool : Decoder Bool := (· != 0) <$> u8

/-- The next two bytes as an unsigned word. -/
def u16 : Decoder UInt16 := UInt16.ofNat <$> word 2

/-- The next four bytes as an unsigned word. -/
def u32 : Decoder UInt32 := UInt32.ofNat <$> word 4

/-- The next eight bytes as an unsigned word. -/
def u64 : Decoder UInt64 := UInt64.ofNat <$> word 8

/-- The next eight bytes as a signed word in two's complement. -/
def i64 : Decoder Int64 := (fun v => (UInt64.ofNat v).toInt64) <$> word 8

/-- The next 16 bytes as a little-endian key. -/
def key : Decoder Key := Key.ofBytes <$> take 16

/-- The next 32 bytes as an address. -/
def address : Decoder Address := fun rest =>
  if h : Bytes.hasAtLeast 32 rest then
    .ok (⟨rest.take 32, Bytes.length_take_of_hasAtLeast h⟩, rest.drop 32)
  else .error (shortBy 32 rest)

/-- Runs `d` exactly `n` times; the results come in order. -/
def replicate (d : Decoder α) : (n : Nat) → Decoder { l : List α // l.length = n }
  | 0 => pure ⟨[], rfl⟩
  | n + 1 => do
    let a ← d
    let ⟨l, h⟩ ← replicate d n
    pure ⟨a :: l, by simp [h]⟩

/-- The value a decoder reads from the front of `bytes`, the rest dropped. -/
def parse (d : Decoder α) (bytes : Bytes) : Except Fault α :=
  (·.1) <$> d.run bytes

end Decoder

end SlabLedger
