import SlabLedger.Address
import SlabLedger.Key
import SlabLedger.Market.Side
/-!
# Faults

Every way a decode can fail, as a cause with its data, and the one function that words them.
A layout fault is a blob whose headers, pages or links do not fit together; the other faults
are a bad node tag, a record cut short, a bad key text or address, a wrong account tag, a log
source that cannot deliver, and a configuration out of range.
-/

namespace SlabLedger

/-- A blob whose layout does not hold together. -/
inductive LayoutFault where
  /-- The page region is shorter than six pages. -/
  | shortRegion (size : Nat)
  /-- Header and offset leave no room on a page (or their sum passes 64 bits). -/
  | noRoom (headerSize offsetSize : UInt64)
  /-- Not even one record fits on a page after the reserved bytes. -/
  | noRecordFits (recordSize reserved : Nat)
  /-- The items need more pages than a header can name. -/
  | tooManyPages (itemCount pages : Nat)
  /-- The offset before the records is longer than a page. -/
  | prefixTooLong (offsetSize : UInt64)
  /-- A used page index names no page of the region. -/
  | pageIndexOutOfRange (index : UInt16) (position : Nat)
  /-- A page index is used twice by one collection. -/
  | pageIndexTwice (index : UInt16)
  /-- A page asked of the pool that it does not have. -/
  | poolIndexOutOfRange (index : UInt16)
  /-- A node index past the end of the node table. -/
  | nodeOutsideTable (index : UInt32) (size : Nat)
  /-- The walk from the root meets a node a second time. -/
  | nodeReachedTwice (index : UInt32)
  /-- The walk from the root meets a node that is neither inner nor leaf. -/
  | reachableTag (index : UInt32) (tag : UInt32)
  /-- The free list is longer than the node table. -/
  | freeListEndless
  /-- The free list meets a node that is not free. -/
  | freeListTag (index : UInt32) (tag : UInt32)
  /-- A book leaf names an order slot past the end of its side's slots. -/
  | orderSlotMissing (side : Side) (slot : UInt32) (slots : Nat)
  /-- A settlement leaf names a balance slot past the end of the slots. -/
  | balanceSlotMissing (slot : UInt32) (slots : Nat)
  /-- A chain of settlement logs longer than the configured limit. -/
  | chainTooLong (limit : Nat)
  /-- A chain of settlement logs that comes back to an account. -/
  | chainRevisits (address : Address)
  deriving DecidableEq, Repr

/-- Why a log source could not deliver an account. -/
inductive SourceFault where
  /-- The source holds no account of that address. -/
  | unavailable (address : Address)
  /-- No dump file of that name in the directory. -/
  | noDump (name dir : String)
  /-- The dump could not be read; the detail says why. -/
  | unreadable (detail : String)
  deriving DecidableEq, Repr

/-- A decoder configuration that cannot be used. -/
inductive ConfigFault where
  /-- The number of settlement header slots is outside 2 to 16. -/
  | headerSlots (n : Nat)
  /-- The chain limit is zero. -/
  | chainLimitZero
  /-- The configuration text is not a valid configuration. -/
  | unparsable
  /-- The configuration file could not be read; the detail says why. -/
  | unreadable (path detail : String)
  deriving DecidableEq, Repr

/-- Every way a decode can fail. -/
inductive Fault where
  | layout (f : LayoutFault)
  /-- A node record whose tag is none of the five kinds. -/
  | badNodeTag (tag : UInt32) (index : Nat)
  /-- A read of `needed` bytes with only `remaining` left. -/
  | truncated (needed remaining : Nat)
  | badKeyText (f : KeyTextFault)
  | badAddress (f : AddressFault)
  /-- An account whose first eight bytes are not the expected tag. -/
  | wrongDiscriminator
  | source (f : SourceFault)
  | config (f : ConfigFault)
  deriving DecidableEq, Repr

/-- The detail of a layout fault. -/
def LayoutFault.message : LayoutFault → String
  | .shortRegion n => "page region holds " ++ toString n ++ " bytes, 6 pages need 98304"
  | .noRoom h o => "header_size " ++ toString h.toNat ++ " + offset_size " ++ toString o.toNat ++
      " leaves no room on a 16384 byte page"
  | .noRecordFits r reserved => "no " ++ toString r ++ " byte record fits after reserving " ++
      toString reserved ++ " bytes"
  | .tooManyPages n p => toString n ++ " items need " ++ toString p ++
      " pages, header indexes at most 16"
  | .prefixTooLong o => "offset_size " ++ toString o.toNat ++ " exceeds the page size"
  | .pageIndexOutOfRange i p => "page index " ++ toString i.toNat ++ " at position " ++
      toString p ++ " out of range"
  | .pageIndexTwice i => "page index " ++ toString i.toNat ++ " referenced twice"
  | .poolIndexOutOfRange i => "page index " ++ toString i.toNat ++
      " out of range (pool has 6 pages)"
  | .nodeOutsideTable i n => "node index " ++ toString i.toNat ++ " outside table of " ++
      toString n ++ " nodes"
  | .nodeReachedTwice i => "node " ++ toString i.toNat ++ " reached twice from the root"
  | .reachableTag i t => "node " ++ toString i.toNat ++ " reachable from the root has tag " ++
      toString t.toNat
  | .freeListEndless => "free list does not terminate"
  | .freeListTag i t => "free list reaches node " ++ toString i.toNat ++ " with tag " ++
      toString t.toNat
  | .orderSlotMissing s slot n => s.name ++ " leaf references slot " ++ toString slot.toNat ++
      " of " ++ toString n ++ " order slots"
  | .balanceSlotMissing slot n => "settlement leaf references slot " ++ toString slot.toNat ++
      " of " ++ toString n ++ " balance slots"
  | .chainTooLong n => "settlement chain longer than " ++ toString n ++ " accounts"
  | .chainRevisits a => "settlement chain revisits " ++ a.toText

/-- The detail of a source fault. -/
def SourceFault.message : SourceFault → String
  | .unavailable a => "account " ++ a.toText ++ " not available"
  | .noDump name dir => "no dump for " ++ name ++ " in " ++ dir
  | .unreadable detail => detail

/-- The detail of a configuration fault. -/
def ConfigFault.message : ConfigFault → String
  | .headerSlots n => "settlement_header_slots must be between 2 and 16, got " ++ toString n
  | .chainLimitZero => "max_chain_len must be at least 1"
  | .unparsable => "Failed to parse config"
  | .unreadable path detail => "Failed to read " ++ path ++ ": " ++ detail

/-- The full text of a fault. -/
def Fault.message : Fault → String
  | .layout f => "Malformed layout: " ++ f.message
  | .badNodeTag t i => "Invalid node tag " ++ toString t.toNat ++ " at node index " ++ toString i
  | .truncated n r => "Truncated record: needed " ++ toString n ++ " bytes, " ++ toString r ++
      " remaining"
  | .badKeyText f => "Invalid key encoding: " ++ f.message
  | .badAddress f => "Invalid address: " ++ f.message
  | .wrongDiscriminator => "Account discriminator does not match"
  | .source f => "Log source error: " ++ f.message
  | .config f => "Configuration error: " ++ f.message

end SlabLedger
