import SlabLedger.Config
import SlabLedger.Slab.Tree
import SlabLedger.Slab.Vector
/-!
# Settlement logs

A settlement log account starts with the addresses of its market and of the previous and next
logs of its chain, six reserved bytes, and as many collection headers as the configuration
says; a region of six pages follows. The first header describes a crit-bit tree whose leaves
name their owners, the second a vector of balance slots. Joining every leaf with its slot gives
the log's entries, in the order of the node table.

The configuration is validated before anything is read.
-/

namespace SlabLedger

/-- The balances of one owner in a settlement log. -/
structure Entry where
  owner : Address
  mktBalance : UInt64
  prcBalance : UInt64
  updatedAt : Int64
  deriving DecidableEq, Repr

/-- The collections of a settlement log account, as stored. -/
structure LogSlab where
  market : Address
  prev : Address
  next : Address
  headers : List Header
  tree : Tree
  balances : SlotVector BalanceSlot
  deriving DecidableEq, Repr

/-- A settlement log: its links and its entries. -/
structure SettlementLog where
  market : Address
  prev : Address
  next : Address
  entries : List Entry
  deriving DecidableEq, Repr

namespace LogSlab

/-- The front of a log: three addresses, six reserved bytes, then the headers; the first two
headers are those of the tree and the balances. -/
def readFront (slots : Nat) :
    Decoder (Address × Address × Address × Header × Header × List Header) := do
  let market ← Decoder.address
  let prev ← Decoder.address
  let next ← Decoder.address
  Decoder.skip 6
  let treeHeader ← Header.read
  let balancesHeader ← Header.read
  let more ← Header.readTable (slots - 2)
  pure (market, prev, next, treeHeader, balancesHeader, more)

/-- Decodes a settlement log account under a configuration, which must be valid. -/
def decode (blob : Bytes) (config : DecoderConfig) : Except Fault LogSlab := do
  config.validate
  let ((market, prev, next, hTree, hBalances, more), region) ←
    (readFront config.settlementHeaderSlots).run blob
  let pool ← PagePool.ofRegion region
  let tree ← Tree.decode hTree pool
  let balances ← SlotVector.decode BalanceSlot.format hBalances pool
  pure { market, prev, next, headers := hTree :: hBalances :: more, tree, balances }

/-- The entries: each leaf joined with the balance slot it names, in table order. -/
def entries (s : LogSlab) : Except Fault (List Entry) :=
  s.tree.leaves.mapM fun leaf =>
    match s.balances.get? leaf.slot with
    | some b => .ok {
        owner := leaf.owner, mktBalance := b.mktBalance, prcBalance := b.prcBalance,
        updatedAt := b.updatedAt }
    | none => .error (.layout (.balanceSlotMissing leaf.slot s.balances.size))

/-- The log with its links and entries. -/
def assemble (s : LogSlab) : Except Fault SettlementLog := do
  let entries ← s.entries
  pure { market := s.market, prev := s.prev, next := s.next, entries }

end LogSlab

namespace SettlementLog

/-- Decodes a settlement log account and joins its entries. -/
def decode (blob : Bytes) (config : DecoderConfig) : Except Fault SettlementLog :=
  LogSlab.decode blob config >>= LogSlab.assemble

/-- The entries of one owner. -/
def entriesFor (log : SettlementLog) (owner : Address) : List Entry :=
  log.entries.filter (·.owner == owner)

/-- Decodes a log and keeps only the entries of one owner. -/
def decodeForOwner (blob : Bytes) (config : DecoderConfig) (owner : Address) :
    Except Fault SettlementLog := do
  let log ← decode blob config
  pure { log with entries := log.entriesFor owner }

/-- The previous log, unless the link is the sentinel. -/
def prevLog (log : SettlementLog) : Option Address := log.prev.nonSentinel

/-- The next log, unless the link is the sentinel. -/
def nextLog (log : SettlementLog) : Option Address := log.next.nonSentinel

end SettlementLog

end SlabLedger
