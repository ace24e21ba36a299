import SlabLedger.Slab.Pages
/-!
# Collections on pages

A collection's records lie on its pages in order. Every page starts with the header's offset;
the first page then holds the collection's info block, and each page holds at most as many
records as fit, until the header's item count is reached. A collection with no pages keeps the
empty info block. The record at table position `i` is read from the bytes of that record alone.
-/

namespace SlabLedger

/-- How one kind of collection lays out and reads its records. -/
structure RecordFormat (ι α : Type) where
  /-- Bytes per record. -/
  size : Nat
  /-- Reads the info block at the head of the first page. -/
  readInfo : Decoder ι
  /-- The info block of a collection without pages. -/
  emptyInfo : ι
  /-- Reads the record at a table position from its bytes. -/
  readRecord : Nat → Bytes → Except Fault α

/-- Where records lie on each page: how many fit, the offset before them, and the total. -/
structure PageLayout where
  perPage : Nat
  offset : Nat
  count : Nat
  deriving DecidableEq, Repr

/-- A decoded collection: its info block and its records in table order. -/
structure Collection (ι α : Type) where
  info : ι
  records : Array α

namespace Collection

/-- Reads up to `k` more records, stopping once `count` are held. -/
def readRecords (fmt : RecordFormat ι α) (count : Nat) : Nat → Array α → Decoder (Array α)
  | 0, acc => pure acc
  | k + 1, acc =>
    if acc.size = count then pure acc
    else do
      let bytes ← Decoder.take fmt.size
      let r ← fmt.readRecord acc.size bytes
      readRecords fmt count k (acc.push r)

/-- Reads one page: the offset is passed, the first page gives the info block, and records
follow. -/
def readPage (fmt : RecordFormat ι α) (layout : PageLayout) (first : Bool) (info : ι)
    (acc : Array α) : Decoder (ι × Array α) := do
  Decoder.skip layout.offset
  let info ← if first then fmt.readInfo else pure info
  let acc ← readRecords fmt layout.count layout.perPage acc
  pure (info, acc)

/-- Reads the pages in order, each from its own bytes. -/
def readPages (fmt : RecordFormat ι α) (layout : PageLayout) :
    Bool → List Bytes → ι × Array α → Except Fault (ι × Array α)
  | _, [], s => .ok s
  | first, p :: ps, (info, acc) => do
    let s ← Decoder.parse (readPage fmt layout first info acc) p
    readPages fmt layout false ps s

/-- Decodes the collection a header describes from the pages of a pool. -/
def decode (fmt : RecordFormat ι α) (h : Header) (pool : PagePool) :
    Except Fault (Collection ι α) := do
  let pages ← pool.select h fmt.size
  let perPage ← h.itemsPerPage fmt.size
  let offset ← h.pagePrefix
  let (info, records) ←
    readPages fmt ⟨perPage, offset, h.itemCount.toNat⟩ true pages (fmt.emptyInfo, #[])
  pure ⟨info, records⟩

end Collection

end SlabLedger
