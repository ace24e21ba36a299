import SlabLedger.Slab.Decoder
/-!
# Collection headers

A collection (a tree's node table or a vector of slots) is described by a header: the bytes
reserved at the start of its first page, the offset before the records on every page, the
number of items, and the indices of up to 16 pages of the region, in order of use.

Each page of 16384 bytes loses the header and the offset; records of a given size fill the
rest. From this follow the records per page, the pages used, and which page indices count:
only the first of them, each naming one of the six pages, none twice.
-/

namespace SlabLedger

/-- Bytes per page. -/
def pageSize : Nat := 16384

/-- Pages in a region. -/
def regionPages : Nat := 6

/-- Page indices a header can hold. -/
def maxCollectionPages : Nat := 16

/-- The description of one collection on the pages of a region. -/
structure Header where
  headerSize : UInt64
  offsetSize : UInt64
  itemCount : UInt64
  pageIndices : List UInt16
  pageIndices_length : pageIndices.length = maxCollectionPages
  deriving DecidableEq, Repr

namespace Header

/-- Reads a header: three 64-bit words, then 16 page indices of 16 bits. -/
def read : Decoder Header := do
  let headerSize ← Decoder.u64
  let offsetSize ← Decoder.u64
  let itemCount ← Decoder.u64
  let ⟨pageIndices, h⟩ ← Decoder.replicate Decoder.u16 maxCollectionPages
  pure { headerSize, offsetSize, itemCount, pageIndices, pageIndices_length := h }

/-- A header from its fields; indices past the sixteenth are dropped and missing ones are zero. -/
def ofFields (headerSize offsetSize itemCount : UInt64) (indices : List UInt16) : Header where
  headerSize := headerSize
  offsetSize := offsetSize
  itemCount := itemCount
  pageIndices := (indices ++ List.replicate maxCollectionPages 0).take maxCollectionPages
  pageIndices_length := by
    simp only [List.length_take, List.length_append, List.length_replicate]
    omega

/-- Reads `count` headers in a row. -/
def readTable (count : Nat) : Decoder (List Header) :=
  (·.1) <$> Decoder.replicate read count

/-- The bytes reserved on a page, header and offset together; they must leave room. -/
def reserved (h : Header) : Except Fault Nat :=
  let r := h.headerSize.toNat + h.offsetSize.toNat
  if r < pageSize then .ok r else .error (.layout (.noRoom h.headerSize h.offsetSize))

/-- How many records of `recordSize` bytes fit on a page after the reserved bytes; a size of
zero counts as one. At least one must fit. -/
def itemsPerPage (h : Header) (recordSize : Nat) : Except Fault Nat := do
  let r ← h.reserved
  let per := (pageSize - r) / max recordSize 1
  if per = 0 then throw (.layout (.noRecordFits recordSize r)) else pure per

/-- The pages the items need, rounded up; no more than a header can name. -/
def totalPages (h : Header) (recordSize : Nat) : Except Fault Nat := do
  let per ← h.itemsPerPage recordSize
  let pages := (h.itemCount.toNat + per - 1) / per
  if maxCollectionPages < pages then throw (.layout (.tooManyPages h.itemCount.toNat pages))
  else pure pages

/-- The offset before the records on each page; at most a page. -/
def pagePrefix (h : Header) : Except Fault Nat :=
  if h.offsetSize.toNat ≤ pageSize then .ok h.offsetSize.toNat
  else .error (.layout (.prefixTooLong h.offsetSize))

/-- Checks page indices from `position` on: each names a page of the region and none repeats one
in `seen` or before it in the list. -/
def checkIndices : (position : Nat) → (seen : List UInt16) → List UInt16 → Except Fault Unit
  | _, _, [] => .ok ()
  | p, seen, i :: rest =>
    if regionPages ≤ i.toNat then .error (.layout (.pageIndexOutOfRange i p))
    else if i ∈ seen then .error (.layout (.pageIndexTwice i))
    else checkIndices (p + 1) (seen ++ [i]) rest

/-- The page indices in use: as many as the items need, each valid and none twice. -/
def usedPages (h : Header) (recordSize : Nat) : Except Fault (List UInt16) := do
  let t ← h.totalPages recordSize
  let used := h.pageIndices.take t
  checkIndices 0 [] used
  pure used

end Header

end SlabLedger
