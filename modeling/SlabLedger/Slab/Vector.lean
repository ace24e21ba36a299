import SlabLedger.Slab.Collection
/-!
# Slot vectors

A slot vector is an info block (the top of its free stack and the next index to hand out) and
a table of fixed-size slot records, laid out as a collection. Order slots hold an amount and an
expiry time (32 bytes each); balance slots hold the market and price balances of an account and
the time of their last update (24 bytes each). A tree leaf names its record by slot number.
-/

namespace SlabLedger

/-- The info block of a slot vector. -/
structure VectorInfo where
  freeTop : UInt32
  nextIndex : UInt32
  deriving DecidableEq, Repr

/-- Reads the 8-byte info block. -/
def VectorInfo.read : Decoder VectorInfo := do
  let freeTop ← Decoder.u32
  let nextIndex ← Decoder.u32
  pure { freeTop, nextIndex }

/-- The amount and expiry of an order. -/
structure OrderSlot where
  amount : UInt64
  expiry : Int64
  deriving DecidableEq, Repr

/-- The balances of an account in a settlement log. -/
structure BalanceSlot where
  mktBalance : UInt64
  prcBalance : UInt64
  updatedAt : Int64
  deriving DecidableEq, Repr

/-- A slot vector: its info block and its records in slot order. -/
structure SlotVector (α : Type) where
  info : VectorInfo
  records : Array α
  deriving DecidableEq, Repr

/-- A slot record of a fixed size read from the front of its bytes. -/
def slotFormat (size : Nat) (read : Decoder α) : RecordFormat VectorInfo α :=
  ⟨size, VectorInfo.read, ⟨0, 0⟩, fun _ bytes => Decoder.parse read bytes⟩

namespace OrderSlot

/-- Reads an amount and an expiry. -/
def read : Decoder OrderSlot := do
  let amount ← Decoder.u64
  let expiry ← Decoder.i64
  pure { amount, expiry }

/-- Order slots take 32 bytes. -/
def format : RecordFormat VectorInfo OrderSlot := slotFormat 32 read

end OrderSlot

namespace BalanceSlot

/-- Reads two balances and an update time. -/
def read : Decoder BalanceSlot := do
  let mktBalance ← Decoder.u64
  let prcBalance ← Decoder.u64
  let updatedAt ← Decoder.i64
  pure { mktBalance, prcBalance, updatedAt }

/-- Balance slots take 24 bytes. -/
def format : RecordFormat VectorInfo BalanceSlot := slotFormat 24 read

end BalanceSlot

namespace SlotVector

/-- Decodes the slot vector a header describes. -/
def decode (fmt : RecordFormat VectorInfo α) (h : Header) (pool : PagePool) :
    Except Fault (SlotVector α) := do
  let c ← Collection.decode fmt h pool
  pure ⟨c.info, c.records⟩

/-- The record of a slot, if the vector has it. -/
def get? (v : SlotVector α) (slot : UInt32) : Option α := v.records[slot.toNat]?

/-- The number of records. -/
def size (v : SlotVector α) : Nat := v.records.size

end SlotVector

end SlabLedger
