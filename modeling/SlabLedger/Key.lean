import SlabLedger.Text.Crockford
/-!
# Keys and order ids

A key of the order tree is a 128-bit number stored as 16 little-endian bytes. Its upper 64 bits
are the price. An order id is the Crockford form of the key's bytes in reverse, that is of its
big-endian bytes: 26 symbols, of which the last carries three bits and two zero bits.
-/

namespace SlabLedger

/-- A 128-bit tree key. -/
structure Key where
  value : Nat
  value_lt : value < Nat.pow 2 128
  deriving DecidableEq, Repr

namespace Key

/-- The key stored in little-endian bytes; only the first 16 bytes count. -/
def ofBytes (bs : Bytes) : Key :=
  ⟨Bytes.leValue bs % Nat.pow 2 128, Nat.mod_lt _ (Nat.two_pow_pos 128)⟩

/-- The 16 little-endian bytes of the key. -/
def toBytes (k : Key) : Bytes := Bytes.leBytes k.value 16

/-- The price: the upper 64 bits of the key. -/
def price (k : Key) : Nat := k.value / Nat.pow 2 64

/-- The order id of the key: the Crockford form of its big-endian bytes. -/
def orderId (k : Key) : String := Crockford.encode k.toBytes.reverse

/-- Reads an order id; it must give exactly 16 bytes. -/
def ofOrderId (s : String) : Except KeyTextFault Key := do
  let bs ← Crockford.decode s
  if bs.length = 16 then pure (ofBytes bs.reverse) else throw (.wrongLength bs.length)

end Key

end SlabLedger
